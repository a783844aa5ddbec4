import Wie.Lib.Reach
import Wie.Winapi.Engine

/-!
# Fiber-local storage

A value can be stored and read in two ways: by a handler of the host, which keeps a list of slots,
and by a routine in guest memory, which keeps a table of 256 words. The handlers write to the table
too, the routines do not write to the list, and neither looks at who asks.

So what a read answers is what the part of it that is looked at was last told, by whichever thread.
It is what the thread itself stored last when that is what was told last.

## Main definitions

* `handleFlsAlloc`, `handleFlsFree`, `handleFlsSetValue`, `handleFlsGetValue` — the handlers
* `encodeFlsGet`, `encodeFlsSet` — the routines
* `hostSees`, `guestSees` — what each part was last told
* `FlsFaithful` — what the answers have to be

## Main results

* `FlsInv.step` — a call keeps the list and the table what they were told
* `fls_faithful_iff` — when the answers are what they have to be
* `not_fls_faithful` — two threads see each other's values
-/

namespace Wie

/-- `FLS_OUT_OF_INDEXES`. -/
def FLS_OUT_OF_INDEXES : ℕ := 2 ^ 32 - 1

/-- Number of words in the table. -/
def GUEST_FLS_SLOT_COUNT : ℕ := 256

/-- A slot of the host. -/
structure FlsSlot where
  /-- Its index. -/
  index : ℕ
  /-- Its value. -/
  value : ℕ
deriving DecidableEq

/-- What the handlers use of the state of the process. -/
structure FlsState where
  /-- The index that is given out next. -/
  nextFlsIndex : ℕ
  /-- The slots. -/
  flsSlots : List FlsSlot
  /-- The table in guest memory, or zero. -/
  guestFlsTableVa : ℕ

namespace FlsState

/-- The state with other slots. -/
def setSlots (s : FlsState) (slots : List FlsSlot) : FlsState := { s with flsSlots := slots }

end FlsState

namespace CpuEngine

/-- The engine with other memory. -/
def setMem (e : CpuEngine) (m : Flat) : CpuEngine := { e with mem := m }

end CpuEngine

/-- `publish_fls_slot`. -/
def publishFlsSlot (e : CpuEngine) (s : FlsState) (index value : ℕ) : CpuEngine :=
  if s.guestFlsTableVa = 0 ∨ 256 ≤ index then e
  else
    let va := satAdd s.guestFlsTableVa (satMul index 8)
    e.setMem ((e.mem.storeLe va 8 value).getD e.mem)

/-- `handle_fls_alloc`. -/
def handleFlsAlloc (e : CpuEngine) (s : FlsState) : (ApiResult × CpuEngine) × FlsState :=
  let index := s.nextFlsIndex
  if index = 2 ^ 32 - 1 then (e.returnFromWin64Api FLS_OUT_OF_INDEXES, s)
  else
    let s := { s with
      nextFlsIndex := index + 1
      flsSlots := s.flsSlots ++ [⟨index, 0⟩] }
    ((publishFlsSlot e s index 0).returnFromWin64Api index, s)

/-- `handle_fls_free`: an index of more than 32 bits is an error. -/
def handleFlsFree (e : CpuEngine) (s : FlsState) : (ApiResult × CpuEngine) × FlsState :=
  let index := e.regs.rcx
  if 2 ^ 32 ≤ index then ((.error, e), s)
  else
    let s := s.setSlots (s.flsSlots.filter fun slot => slot.index ≠ index)
    ((publishFlsSlot e s index 0).returnFromWin64Api 1, s)

/-- The first slot of an index gets a value, or a new one if there is none. -/
def storeSlot : List FlsSlot → ℕ → ℕ → List FlsSlot
  | [], index, value => [⟨index, value⟩]
  | slot :: slots, index, value =>
    if slot.index = index then ⟨index, value⟩ :: slots else slot :: storeSlot slots index value

/-- The value of the first slot of an index, or zero. -/
def slotValue (slots : List FlsSlot) (index : ℕ) : ℕ :=
  ((slots.find? fun slot => slot.index = index).map FlsSlot.value).getD 0

/-- `handle_fls_set_value`. -/
def handleFlsSetValue (e : CpuEngine) (s : FlsState) : (ApiResult × CpuEngine) × FlsState :=
  let index := e.regs.rcx
  let value := e.regs.rdx
  if 2 ^ 32 ≤ index then ((.error, e), s)
  else
    let s := s.setSlots (storeSlot s.flsSlots index value)
    ((publishFlsSlot e s index value).returnFromWin64Api 1, s)

/-- `handle_fls_get_value`. -/
def handleFlsGetValue (e : CpuEngine) (s : FlsState) : (ApiResult × CpuEngine) × FlsState :=
  let index := e.regs.rcx
  if 2 ^ 32 ≤ index then ((.error, e), s)
  else (e.returnFromWin64Api (slotValue s.flsSlots index), s)

/-- What the code of `encode_fls_get` does: compare RCX with the number of words, load, return. -/
def encodeFlsGet (tableVa maxSlots : ℕ) (e : CpuEngine) : ApiResult × CpuEngine :=
  if maxSlots ≤ e.regs.rcx then e.returnFromWin64Api 0
  else
    match e.mem.loadLe ((tableVa + e.regs.rcx * 8) % 2 ^ 64) 8 with
    | some value => e.returnFromWin64Api value
    | none => (.error, e)

/-- What the code of `encode_fls_set` does. -/
def encodeFlsSet (tableVa maxSlots : ℕ) (e : CpuEngine) : ApiResult × CpuEngine :=
  if maxSlots ≤ e.regs.rcx then e.returnFromWin64Api 0
  else
    match e.mem.storeLe ((tableVa + e.regs.rcx * 8) % 2 ^ 64) 8 e.regs.rdx with
    | some m => (e.setMem m).returnFromWin64Api 1
    | none => (.error, e)

/-! ### Threads that make calls -/

/-- The calls, with who serves them. -/
inductive FlsCall
  /-- `FlsAlloc`. -/
  | alloc
  /-- `FlsFree`. -/
  | free
  /-- `FlsSetValue`, served by the host. -/
  | hostSet
  /-- `FlsGetValue`, served by the host. -/
  | hostGet
  /-- `FlsSetValue`, served in the guest. -/
  | guestSet
  /-- `FlsGetValue`, served in the guest. -/
  | guestGet
deriving DecidableEq

/-- The handler or routine of a call. -/
def FlsCall.serve (c : FlsCall) (e : CpuEngine) (s : FlsState) :
    (ApiResult × CpuEngine) × FlsState :=
  match c with
  | alloc => handleFlsAlloc e s
  | free => handleFlsFree e s
  | hostSet => handleFlsSetValue e s
  | hostGet => handleFlsGetValue e s
  | guestSet => (encodeFlsSet s.guestFlsTableVa GUEST_FLS_SLOT_COUNT e, s)
  | guestGet => (encodeFlsGet s.guestFlsTableVa GUEST_FLS_SLOT_COUNT e, s)

/-- A call that was made. -/
structure FlsAnswer where
  /-- Who called. -/
  tid : ℕ
  /-- What. -/
  call : FlsCall
  /-- The index asked about, or about to be given out. -/
  index : ℕ
  /-- The value to set. -/
  value : ℕ
  /-- The answer, if there was one. -/
  result : Option ℕ
deriving DecidableEq

/-- The process, the memory its threads share, and the calls so far, newest first. -/
structure FlsSystem where
  /-- The state of the process. -/
  state : FlsState
  /-- Guest memory. -/
  mem : Flat
  /-- The calls so far. -/
  history : List FlsAnswer

/-- What can happen. -/
inductive FlsAction
  /-- A thread makes a call. -/
  | call (tid : ℕ) (c : FlsCall) (regs : Regs)
  /-- Threads write to other memory. -/
  | elsewhere (m : Flat)

/-- One action. -/
def FlsSystem.next (s : FlsSystem) : FlsAction → FlsSystem
  | .call tid c regs =>
    let r := c.serve ⟨regs, s.mem⟩ s.state
    let index := if c = .alloc then s.state.nextFlsIndex else regs.rcx
    ⟨r.2, r.1.2.mem, ⟨tid, c, index, regs.rdx, r.1.1.value⟩ :: s.history⟩
  | .elsewhere m => ⟨s.state, m, s.history⟩

/-- Registers hold words, and no thread writes to the table. -/
def FlsProper (s : FlsSystem) : FlsAction → Prop
  | .call _ _ regs => regs.rcx < 2 ^ 64 ∧ regs.rdx < 2 ^ 64
  | .elsewhere m => ∀ x, s.state.guestFlsTableVa ≤ x → x < s.state.guestFlsTableVa + 2048 →
      m.byte x = s.mem.byte x ∧ m.writable x = s.mem.writable x

/-- Before any call: a table of zeros. -/
structure FlsBoot (s : FlsSystem) : Prop where
  /-- Indices start at one. -/
  next : s.state.nextFlsIndex = 1
  /-- There are no slots. -/
  slots : s.state.flsSlots = []
  /-- There is a table. -/
  table : s.state.guestFlsTableVa ≠ 0
  /-- It ends in the address space. -/
  tableHi : s.state.guestFlsTableVa + 2048 ≤ 2 ^ 64
  /-- It can be written. -/
  rw : s.mem.Rw s.state.guestFlsTableVa 2048
  /-- It is zero. -/
  zero : ∀ i < 256, s.mem.get (s.state.guestFlsTableVa + i * 8) 8 = 0
  /-- No call was made. -/
  history : s.history = []

/-- The states of runs. -/
def FlsReach : FlsSystem → Prop :=
  GuardedReach FlsBoot FlsProper fun s a s' => s' = s.next a

/-! ### What the answers have to be -/

/-- An index that was given out and not freed since. -/
def Allocated (i : ℕ) : List FlsAnswer → Prop
  | [] => False
  | a :: hs => (a.call = .alloc ∧ a.result = some i ∧ i ≠ FLS_OUT_OF_INDEXES) ∨
    (¬(a.call = .free ∧ a.index = i ∧ a.result = some 1) ∧ Allocated i hs)

/-- What a thread stored last under an index since it was given out, or zero. -/
def ownLast (t i : ℕ) : List FlsAnswer → ℕ
  | [] => 0
  | a :: hs =>
    if a.call = .alloc ∧ a.result = some i then 0
    else if (a.call = .hostSet ∨ a.call = .guestSet) ∧ a.tid = t ∧ a.index = i ∧ a.result = some 1
      then a.value
    else ownLast t i hs

/-- **Values belong to threads, and it does not matter who serves a call.** No index is given out
that is allocated, and under an allocated index a thread finds what it stored last itself. -/
def FlsFaithful : List FlsAnswer → Prop
  | [] => True
  | a :: hs => FlsFaithful hs ∧
    (a.call = .alloc → ∀ n ∈ a.result, n ≠ FLS_OUT_OF_INDEXES → ¬Allocated n hs) ∧
    (a.call = .hostGet ∨ a.call = .guestGet → Allocated a.index hs →
      ∀ v ∈ a.result, v = ownLast a.tid a.index hs)

instance Allocated.decidable (i : ℕ) : ∀ hs, Decidable (Allocated i hs)
  | [] => .isFalse id
  | a :: hs =>
    have := Allocated.decidable i hs
    inferInstanceAs (Decidable ((a.call = .alloc ∧ a.result = some i ∧ i ≠ FLS_OUT_OF_INDEXES) ∨
      (¬(a.call = .free ∧ a.index = i ∧ a.result = some 1) ∧ Allocated i hs)))

instance FlsFaithful.decidable : ∀ hs, Decidable (FlsFaithful hs)
  | [] => .isTrue trivial
  | a :: hs =>
    have := FlsFaithful.decidable hs
    inferInstanceAs (Decidable (FlsFaithful hs ∧
      (a.call = .alloc → ∀ n ∈ a.result, n ≠ FLS_OUT_OF_INDEXES → ¬Allocated n hs) ∧
      (a.call = .hostGet ∨ a.call = .guestGet → Allocated a.index hs →
        ∀ v ∈ a.result, v = ownLast a.tid a.index hs)))

/-! ### What the two parts were told -/

/-- What the list of the host was last told about an index: by a thread that had the host store
something, or free it. -/
def hostSees (i : ℕ) : List FlsAnswer → ℕ
  | [] => 0
  | a :: hs =>
    if a.call = .hostSet ∧ a.index = i then a.value
    else if a.call = .free ∧ a.index = i then 0
    else hostSees i hs

/-- What the table was last told: by a thread that stored something in either way, freed the index
or was given it. -/
def tableSees (i : ℕ) : List FlsAnswer → ℕ
  | [] => 0
  | a :: hs =>
    if (a.call = .hostSet ∨ a.call = .guestSet) ∧ a.index = i then a.value
    else if (a.call = .free ∨ a.call = .alloc) ∧ a.index = i then 0
    else tableSees i hs

/-- What the routines see: nothing past the table. -/
def guestSees (i : ℕ) (hs : List FlsAnswer) : ℕ :=
  if i < GUEST_FLS_SLOT_COUNT then tableSees i hs else 0

/-- **Every thread that asked and was answered was the last to tell**: what the part that was asked
had been told last is what the thread stored last itself. -/
def SeesOwn : List FlsAnswer → Prop
  | [] => True
  | a :: hs => SeesOwn hs ∧ (a.result.isSome → Allocated a.index hs →
    (a.call = .hostGet → hostSees a.index hs = ownLast a.tid a.index hs) ∧
    (a.call = .guestGet → guestSees a.index hs = ownLast a.tid a.index hs))

instance SeesOwn.decidable : ∀ hs, Decidable (SeesOwn hs)
  | [] => .isTrue trivial
  | a :: hs =>
    have := SeesOwn.decidable hs
    inferInstanceAs (Decidable (SeesOwn hs ∧ (a.result.isSome → Allocated a.index hs →
      (a.call = .hostGet → hostSees a.index hs = ownLast a.tid a.index hs) ∧
      (a.call = .guestGet → guestSees a.index hs = ownLast a.tid a.index hs))))

/-! ### Slots -/

section slots

variable {slots : List FlsSlot} {i j v : ℕ}

theorem slotValue_storeSlot (slots : List FlsSlot) (i v j : ℕ) :
    slotValue (storeSlot slots i v) j = if j = i then v else slotValue slots j := by
  induction slots with
  | nil =>
    by_cases hj : j = i
    · simp [storeSlot, slotValue, hj]
    · simp [storeSlot, slotValue, hj, Ne.symm hj]
  | cons slot slots ih =>
    rw [storeSlot]
    by_cases hi : slot.index = i
    · rw [if_pos hi]
      by_cases hj : j = i
      · simp [slotValue, hj]
      · simp [slotValue, hj, Ne.symm hj, hi]
    · rw [if_neg hi]
      by_cases hs : slot.index = j
      · have hji : j ≠ i := fun h => hi (hs.trans h)
        simp [slotValue, hs, hji]
      · simpa [slotValue, hs] using ih

theorem slotValue_filter (slots : List FlsSlot) (i j : ℕ) :
    slotValue (slots.filter fun slot => slot.index ≠ i) j =
      if j = i then 0 else slotValue slots j := by
  induction slots with
  | nil => simp [slotValue]
  | cons slot slots ih =>
    by_cases hi : slot.index = i
    · rw [List.filter_cons_of_neg (by simp [hi]), ih]
      by_cases hj : j = i
      · rw [if_pos hj, if_pos hj]
      · have hs : slot.index ≠ j := fun h => hj (h.symm.trans hi)
        simp [slotValue, hj, hs]
    · rw [List.filter_cons_of_pos (by simp [hi])]
      by_cases hs : slot.index = j
      · have hji : j ≠ i := fun h => hi (hs.trans h)
        simp [slotValue, hs, hji]
      · simpa [slotValue, hs] using ih

/-- **A new slot hides no value**: it has none itself. -/
theorem slotValue_append (slots : List FlsSlot) (i j : ℕ) :
    slotValue (slots ++ [⟨i, 0⟩]) j = slotValue slots j := by
  rw [slotValue, slotValue, List.find?_append]
  rcases hf : slots.find? fun slot => decide (slot.index = j) with - | slot
  · by_cases hi : i = j
    · rw [hf, Option.none_or, List.find?_singleton, if_pos (by exact decide_eq_true hi)]
      rfl
    · rw [hf, Option.none_or, List.find?_singleton, if_neg (by simpa using hi)]
  · rw [hf, Option.some_or]

end slots

/-! ### The table -/

/-- The table can be written. -/
structure TableReady (table : ℕ) (m : Flat) : Prop where
  /-- There is one. -/
  pos : table ≠ 0
  /-- It ends in the address space. -/
  hi : table + 2048 ≤ 2 ^ 64
  /-- It can be written. -/
  rw : m.Rw table 2048

section table

variable {t i v : ℕ} {m : Flat}

theorem TableReady.set (h : TableReady t m) (va : ℕ) (v : ℕ) : TableReady t (m.set va 8 v) :=
  ⟨h.pos, h.hi, h.rw.congr rfl⟩

/-- A word of the table. -/
theorem get_set_table (hv : v < 2 ^ 64) (i j : ℕ) :
    (m.set (t + i * 8) 8 v).get (t + j * 8) 8 = if j = i then v else m.get (t + j * 8) 8 := by
  by_cases hj : j = i
  · rw [if_pos hj, hj, Flat.get_set_of_lt hv]
  · rw [if_neg hj, Flat.get_set_of_disjoint (by omega)]

/-- **Publishing** writes the word of the index, if there is one. -/
theorem publishFlsSlot_mem {e : CpuEngine} {s : FlsState} (h : TableReady s.guestFlsTableVa e.mem)
    (i v : ℕ) : (publishFlsSlot e s i v).mem =
      if i < 256 then e.mem.set (s.guestFlsTableVa + i * 8) 8 v else e.mem := by
  have hhi := h.hi
  by_cases hi : i < 256
  · have hva : satAdd s.guestFlsTableVa (satMul i 8) = s.guestFlsTableVa + i * 8 := by
      rw [satMul_of_lt (by omega), satAdd_of_lt (by omega)]
    have hrw : e.mem.Rw (s.guestFlsTableVa + i * 8) 8 := h.rw.mono (by omega) (by omega)
    rw [if_pos hi, publishFlsSlot, if_neg fun hc => hc.elim h.pos (by omega)]
    dsimp only
    rw [hva, hrw.storeLe]
    rfl
  · rw [if_neg hi, publishFlsSlot, if_pos (.inr (by omega))]

end table

/-! ### Runs -/

/-- **What holds between calls**: the list and the table have what they were told. -/
structure FlsInv (s : FlsSystem) : Prop where
  /-- The table. -/
  ready : TableReady s.state.guestFlsTableVa s.mem
  /-- The list has what it was told. -/
  host : ∀ i < 2 ^ 32, slotValue s.state.flsSlots i = hostSees i s.history
  /-- So has the table. -/
  guest : ∀ i < 256, s.mem.get (s.state.guestFlsTableVa + i * 8) 8 = tableSees i s.history
  /-- Indices go up. -/
  young : ∀ i, Allocated i s.history → i < s.state.nextFlsIndex
  /-- They are below the top. -/
  next : s.state.nextFlsIndex < 2 ^ 32

/-- A read that was answered has the value that the part was last told, and an index that was given
out was not allocated. -/
def Told : List FlsAnswer → Prop
  | [] => True
  | a :: hs => Told hs ∧
    (a.call = .alloc → ∀ n ∈ a.result, n ≠ FLS_OUT_OF_INDEXES → ¬Allocated n hs) ∧
    (a.call = .hostGet → ∀ v ∈ a.result, v = hostSees a.index hs) ∧
    (a.call = .guestGet → ∀ v ∈ a.result, v = guestSees a.index hs)

section history

variable {a : FlsAnswer} {hs : List FlsAnswer} {i : ℕ}

theorem hostSees_of_call (h1 : a.call ≠ .hostSet) (h2 : a.call ≠ .free) :
    hostSees i (a :: hs) = hostSees i hs :=
  (if_neg fun h => h1 h.1).trans (if_neg fun h => h2 h.1)

theorem hostSees_of_index (h : a.index ≠ i) : hostSees i (a :: hs) = hostSees i hs :=
  (if_neg fun hc => h hc.2).trans (if_neg fun hc => h hc.2)

theorem tableSees_of_get (h : a.call = .hostGet ∨ a.call = .guestGet) :
    tableSees i (a :: hs) = tableSees i hs := by
  have h1 : ¬((a.call = .hostSet ∨ a.call = .guestSet) ∧ a.index = i) := by
    rintro ⟨hc | hc, -⟩ <;> rcases h with h | h <;> cases hc.symm.trans h
  have h2 : ¬((a.call = .free ∨ a.call = .alloc) ∧ a.index = i) := by
    rintro ⟨hc | hc, -⟩ <;> rcases h with h | h <;> cases hc.symm.trans h
  exact (if_neg h1).trans (if_neg h2)

theorem tableSees_of_index (h : a.index ≠ i) : tableSees i (a :: hs) = tableSees i hs :=
  (if_neg fun hc => h hc.2).trans (if_neg fun hc => h hc.2)

theorem allocated_of_call (h : a.call ≠ .alloc) (ha : Allocated i (a :: hs)) : Allocated i hs := by
  rcases ha with ⟨hc, -⟩ | ⟨-, ha⟩
  · exact absurd hc h
  · exact ha

end history

namespace FlsInv

variable {s : FlsSystem} {st : FlsState} {a : FlsAnswer} {tid v : ℕ} {c : FlsCall} {regs : Regs}
  {e : CpuEngine}

theorem boot (h : FlsBoot s) : FlsInv s where
  ready := ⟨h.table, h.tableHi, h.rw⟩
  host i _ := by
    rw [h.slots, h.history]
    rfl
  guest i hi := by
    rw [h.zero i hi, h.history]
    rfl
  young i hi := by
    rw [h.history] at hi
    exact hi.elim
  next := by
    rw [h.next]
    decide

/-- Other memory. -/
theorem elsewhere (h : FlsInv s) {m : Flat} (hm : FlsProper s (.elsewhere m)) :
    FlsInv ⟨s.state, m, s.history⟩ := by
  refine ⟨⟨h.ready.pos, h.ready.hi, fun x hx hx' => ?_⟩, h.host, fun i hi => ?_, h.young, h.next⟩
  · exact (hm x hx hx').2.trans (h.ready.rw x hx hx')
  · refine Eq.trans (Flat.get_congr fun x hx hx' => (hm x ?_ ?_).1) (h.guest i hi)
    · exact Nat.le_of_add_right_le hx
    · change x < s.state.guestFlsTableVa + i * 8 + 8 at hx'
      omega

/-- A call that comes back. -/
theorem next_returned (heq : c.serve ⟨regs, s.mem⟩ s.state = (e.returnFromWin64Api v, st))
    (tid : ℕ) : ∃ r, (∀ n ∈ r, n = v) ∧ s.next (.call tid c regs) = ⟨st, e.mem,
      ⟨tid, c, if c = .alloc then s.state.nextFlsIndex else regs.rcx, regs.rdx, r⟩ ::
        s.history⟩ := by
  refine ⟨(e.returnFromWin64Api v).1.value, fun n hn => CpuEngine.value_eq hn, ?_⟩
  rw [← e.returnFromWin64Api_mem v]
  show FlsSystem.mk (c.serve ⟨regs, s.mem⟩ s.state).2 (c.serve ⟨regs, s.mem⟩ s.state).1.2.mem
    (⟨tid, c, _, regs.rdx, (c.serve ⟨regs, s.mem⟩ s.state).1.1.value⟩ :: s.history) = _
  rw [heq]

/-- A call that is an error. -/
theorem next_error (heq : c.serve ⟨regs, s.mem⟩ s.state = ((.error, ⟨regs, s.mem⟩), s.state))
    (tid : ℕ) : s.next (.call tid c regs) = ⟨s.state, s.mem,
      ⟨tid, c, if c = .alloc then s.state.nextFlsIndex else regs.rcx, regs.rdx, none⟩ ::
        s.history⟩ := by
  show FlsSystem.mk (c.serve ⟨regs, s.mem⟩ s.state).2 (c.serve ⟨regs, s.mem⟩ s.state).1.2.mem
    (⟨tid, c, _, regs.rdx, (c.serve ⟨regs, s.mem⟩ s.state).1.1.value⟩ :: s.history) = _
  rw [heq]
  rfl

/-- A call that tells neither part anything. -/
theorem unchanged (h : FlsInv s) (halloc : ∀ i, Allocated i (a :: s.history) →
      i < s.state.nextFlsIndex)
    (hhost : ∀ i < 2 ^ 32, hostSees i (a :: s.history) = hostSees i s.history)
    (htable : ∀ i < 256, tableSees i (a :: s.history) = tableSees i s.history) :
    FlsInv ⟨s.state, s.mem, a :: s.history⟩ where
  ready := h.ready
  host i hi := (h.host i hi).trans (hhost i hi).symm
  guest i hi := (h.guest i hi).trans (htable i hi).symm
  young := halloc
  next := h.next

/-- The index of a call that is not `FlsAlloc` is out of reach. -/
theorem out_of_reach (h : FlsInv s) (ha : a.call ≠ .alloc) (hi : 2 ^ 32 ≤ a.index) :
    FlsInv ⟨s.state, s.mem, a :: s.history⟩ :=
  h.unchanged (fun i hm => h.young i (allocated_of_call ha hm))
    (fun i hlt => hostSees_of_index (by omega)) (fun i hlt => tableSees_of_index (by omega))

/-- The table once an index was told a value. -/
theorem published (h : FlsInv s) (hst : st.guestFlsTableVa = s.state.guestFlsTableVa)
    {v : ℕ} (hv : v < 2 ^ 64) (index : ℕ) (regs : Regs) :
    TableReady st.guestFlsTableVa (publishFlsSlot ⟨regs, s.mem⟩ st index v).mem ∧
      ∀ i < 256, (publishFlsSlot ⟨regs, s.mem⟩ st index v).mem.get
        (st.guestFlsTableVa + i * 8) 8 = if i = index then v else tableSees i s.history := by
  have hready : TableReady st.guestFlsTableVa (CpuEngine.mk regs s.mem).mem := hst ▸ h.ready
  rw [publishFlsSlot_mem hready]
  by_cases hi : index < 256
  · rw [if_pos hi]
    refine ⟨hready.set _ _, fun i hi => ?_⟩
    rw [get_set_table hv, ← h.guest i hi, hst]
  · rw [if_neg hi]
    refine ⟨hready, fun i hi' => ?_⟩
    have hne : i ≠ index := by omega
    rw [if_neg hne, hst]
    exact h.guest i hi'

/-- **An index is given out.** -/
theorem alloc (h : FlsInv s) (htold : Told s.history) (tid : ℕ) (regs : Regs) :
    FlsInv (s.next (.call tid .alloc regs)) ∧ Told (s.next (.call tid .alloc regs)).history := by
  have hset : FlsCall.alloc ≠ .hostSet := by decide
  have hfree : FlsCall.alloc ≠ .free := by decide
  have hget : FlsCall.alloc ≠ .hostGet := by decide
  have hgget : FlsCall.alloc ≠ .guestGet := by decide
  by_cases htop : s.state.nextFlsIndex = 2 ^ 32 - 1
  · have heq : FlsCall.alloc.serve ⟨regs, s.mem⟩ s.state =
        ((CpuEngine.mk regs s.mem).returnFromWin64Api FLS_OUT_OF_INDEXES, s.state) := if_pos htop
    obtain ⟨r, hr, hnext⟩ := next_returned heq tid
    rw [hnext]
    refine ⟨h.unchanged (fun i hi => ?_) (fun i hi => hostSees_of_call hset hfree)
      (fun i hi => tableSees_of_index ?_), htold, fun _ n hn hout => absurd (hr n hn) hout,
        fun hc => absurd hc hget, fun hc => absurd hc hgget⟩
    · rcases hi with ⟨-, hri, hout⟩ | ⟨-, hi⟩
      · exact absurd (hr i hri) hout
      · exact h.young i hi
    · show s.state.nextFlsIndex ≠ i
      omega
  · obtain ⟨st, hst⟩ : ∃ st : FlsState, st = { s.state with
        nextFlsIndex := s.state.nextFlsIndex + 1
        flsSlots := s.state.flsSlots ++ [⟨s.state.nextFlsIndex, 0⟩] } := ⟨_, rfl⟩
    have heq : FlsCall.alloc.serve ⟨regs, s.mem⟩ s.state =
        ((publishFlsSlot ⟨regs, s.mem⟩ st s.state.nextFlsIndex 0).returnFromWin64Api
          s.state.nextFlsIndex, st) := hst ▸ if_neg htop
    have hup : st.nextFlsIndex = s.state.nextFlsIndex + 1 := by rw [hst]
    have hslots : st.flsSlots = s.state.flsSlots ++ [⟨s.state.nextFlsIndex, 0⟩] := by rw [hst]
    have htop' := h.next
    obtain ⟨r, hr, hnext⟩ := next_returned heq tid
    have htab : st.guestFlsTableVa = s.state.guestFlsTableVa := by rw [hst]
    obtain ⟨hready, htable⟩ := h.published htab (v := 0) (by decide) s.state.nextFlsIndex regs
    rw [hnext]
    refine ⟨⟨hready, fun i hi => ?_, fun i hi => ?_, fun i hi => ?_, ?_⟩, htold,
      fun _ n hn _ hm => ?_, fun hc => absurd hc hget, fun hc => absurd hc hgget⟩
    · rw [hslots, slotValue_append, hostSees_of_call hset hfree]
      exact h.host i hi
    · rw [htable i hi]
      by_cases hin : i = s.state.nextFlsIndex
      · rw [if_pos hin]
        exact ((if_neg fun hc => by rcases hc.1 with hc | hc <;> cases hc).trans
          (if_pos ⟨.inr rfl, hin.symm⟩)).symm
      · rw [if_neg hin]
        exact (tableSees_of_index fun hc => hin hc.symm).symm
    · rw [hup]
      rcases hi with ⟨-, hri, -⟩ | ⟨-, hi⟩
      · rw [hr i hri]
        exact Nat.lt_succ_self _
      · exact Nat.lt_succ_of_lt (h.young i hi)
    · rw [hup]
      omega
    · exact absurd (h.young n hm) (by rw [hr n hn]; exact lt_irrefl _)

/-- **The host is told a value**, and the table is, too. -/
theorem tell (h : FlsInv s) {index : ℕ} (hst : st.guestFlsTableVa = s.state.guestFlsTableVa)
    (hup : st.nextFlsIndex = s.state.nextFlsIndex) (hv : v < 2 ^ 64) (ha : a.call ≠ .alloc)
    (hslots : ∀ i, slotValue st.flsSlots i = if i = index then v else slotValue s.state.flsSlots i)
    (hhost : ∀ i, hostSees i (a :: s.history) = if i = index then v else hostSees i s.history)
    (htable : ∀ i, tableSees i (a :: s.history) = if i = index then v else tableSees i s.history) :
    FlsInv ⟨st, (publishFlsSlot ⟨regs, s.mem⟩ st index v).mem, a :: s.history⟩ := by
  obtain ⟨hready, hword⟩ := h.published hst hv index regs
  refine ⟨hready, fun i hi => ?_, fun i hi => ?_, fun i hi => ?_, ?_⟩
  · rw [hslots, hhost]
    by_cases hin : i = index
    · rw [if_pos hin, if_pos hin]
    · rw [if_neg hin, if_neg hin]
      exact h.host i hi
  · rw [hword i hi, htable]
  · rw [hup]
    exact h.young i (allocated_of_call ha hi)
  · rw [hup]
    exact h.next

theorem free (h : FlsInv s) (htold : Told s.history) (tid : ℕ) (regs : Regs) :
    FlsInv (s.next (.call tid .free regs)) ∧ Told (s.next (.call tid .free regs)).history := by
  have halloc : FlsCall.free ≠ .alloc := by decide
  have hset : FlsCall.free ≠ .hostSet := by decide
  have hgset : FlsCall.free ≠ .guestSet := by decide
  have hget : FlsCall.free ≠ .hostGet := by decide
  have hgget : FlsCall.free ≠ .guestGet := by decide
  by_cases hi : 2 ^ 32 ≤ regs.rcx
  · rw [next_error (c := .free) (if_pos hi) tid]
    exact ⟨h.out_of_reach halloc hi, htold, fun hc => absurd hc halloc, fun hc => absurd hc hget,
      fun hc => absurd hc hgget⟩
  · obtain ⟨r, hr, hnext⟩ := next_returned (c := .free) (if_neg hi) tid
    rw [hnext]
    refine ⟨h.tell rfl rfl (by decide) halloc (slotValue_filter _ _) (fun i => ?_) (fun i => ?_),
      htold, fun hc => absurd hc halloc, fun hc => absurd hc hget, fun hc => absurd hc hgget⟩
    · refine (if_neg fun hc => hset hc.1).trans ?_
      by_cases hin : i = regs.rcx
      · rw [if_pos hin]
        exact if_pos ⟨rfl, hin.symm⟩
      · rw [if_neg hin]
        exact if_neg fun hc => hin hc.2.symm
    · refine (if_neg fun hc => hc.1.elim hset hgset).trans ?_
      by_cases hin : i = regs.rcx
      · rw [if_pos hin]
        exact if_pos ⟨.inl rfl, hin.symm⟩
      · rw [if_neg hin]
        exact if_neg fun hc => hin hc.2.symm

theorem hostSet (h : FlsInv s) (htold : Told s.history) (tid : ℕ) (hv : regs.rdx < 2 ^ 64) :
    FlsInv (s.next (.call tid .hostSet regs)) ∧
      Told (s.next (.call tid .hostSet regs)).history := by
  have halloc : FlsCall.hostSet ≠ .alloc := by decide
  have hfree : FlsCall.hostSet ≠ .free := by decide
  have hget : FlsCall.hostSet ≠ .hostGet := by decide
  have hgget : FlsCall.hostSet ≠ .guestGet := by decide
  by_cases hi : 2 ^ 32 ≤ regs.rcx
  · rw [next_error (c := .hostSet) (if_pos hi) tid]
    exact ⟨h.out_of_reach halloc hi, htold, fun hc => absurd hc halloc, fun hc => absurd hc hget,
      fun hc => absurd hc hgget⟩
  · obtain ⟨r, hr, hnext⟩ := next_returned (c := .hostSet) (if_neg hi) tid
    rw [hnext]
    refine ⟨h.tell rfl rfl hv halloc (slotValue_storeSlot _ _ _) (fun i => ?_) (fun i => ?_),
      htold, fun hc => absurd hc halloc, fun hc => absurd hc hget, fun hc => absurd hc hgget⟩
    · by_cases hin : i = regs.rcx
      · rw [if_pos hin]
        exact if_pos ⟨rfl, hin.symm⟩
      · rw [if_neg hin]
        exact hostSees_of_index fun hc => hin hc.symm
    · by_cases hin : i = regs.rcx
      · rw [if_pos hin]
        exact if_pos ⟨.inl rfl, hin.symm⟩
      · rw [if_neg hin]
        exact tableSees_of_index fun hc => hin hc.symm

theorem hostGet (h : FlsInv s) (htold : Told s.history) (tid : ℕ) (regs : Regs) :
    FlsInv (s.next (.call tid .hostGet regs)) ∧
      Told (s.next (.call tid .hostGet regs)).history := by
  have halloc : FlsCall.hostGet ≠ .alloc := by decide
  have hset : FlsCall.hostGet ≠ .hostSet := by decide
  have hfree : FlsCall.hostGet ≠ .free := by decide
  have hgget : FlsCall.hostGet ≠ .guestGet := by decide
  by_cases hi : 2 ^ 32 ≤ regs.rcx
  · rw [next_error (c := .hostGet) (if_pos hi) tid]
    exact ⟨h.out_of_reach halloc hi, htold, fun hc => absurd hc halloc,
      fun _ v hv => absurd hv (Option.not_mem_none v), fun hc => absurd hc hgget⟩
  · obtain ⟨r, hr, hnext⟩ := next_returned (c := .hostGet) (if_neg hi) tid
    rw [hnext]
    refine ⟨h.unchanged (fun i hm => h.young i (allocated_of_call halloc hm))
      (fun i hlt => hostSees_of_call hset hfree) (fun i hlt => tableSees_of_get (.inl rfl)),
      htold, fun hc => absurd hc halloc, fun _ v hv => ?_, fun hc => absurd hc hgget⟩
    exact (hr v hv).trans (h.host regs.rcx (not_le.mp hi))

/-- A word of the table, where the routines look for it. -/
theorem word_va (h : FlsInv s) (hi : regs.rcx < GUEST_FLS_SLOT_COUNT) :
    (s.state.guestFlsTableVa + regs.rcx * 8) % 2 ^ 64 = s.state.guestFlsTableVa + regs.rcx * 8 ∧
      s.mem.Rw (s.state.guestFlsTableVa + regs.rcx * 8) 8 := by
  have hhi := h.ready.hi
  rw [GUEST_FLS_SLOT_COUNT] at hi
  exact ⟨Nat.mod_eq_of_lt (by omega), h.ready.rw.mono (by omega) (by omega)⟩

theorem guestGet (h : FlsInv s) (htold : Told s.history) (tid : ℕ) (regs : Regs) :
    FlsInv (s.next (.call tid .guestGet regs)) ∧
      Told (s.next (.call tid .guestGet regs)).history := by
  have halloc : FlsCall.guestGet ≠ .alloc := by decide
  have hset : FlsCall.guestGet ≠ .hostSet := by decide
  have hfree : FlsCall.guestGet ≠ .free := by decide
  have hget : FlsCall.guestGet ≠ .hostGet := by decide
  have heq : FlsCall.guestGet.serve ⟨regs, s.mem⟩ s.state =
      ((CpuEngine.mk regs s.mem).returnFromWin64Api (guestSees regs.rcx s.history), s.state) := by
    show (encodeFlsGet _ _ _, s.state) = _
    by_cases hi : regs.rcx < GUEST_FLS_SLOT_COUNT
    · obtain ⟨hva, hrw⟩ := h.word_va hi
      rw [guestSees, if_pos hi, encodeFlsGet, if_neg (not_le.mpr hi)]
      dsimp only
      rw [hva, hrw.loadLe, h.guest _ hi]
    · rw [guestSees, if_neg hi, encodeFlsGet, if_pos (not_lt.mp hi)]
  obtain ⟨r, hr, hnext⟩ := next_returned heq tid
  rw [hnext]
  exact ⟨h.unchanged (fun i hm => h.young i (allocated_of_call halloc hm))
    (fun i hlt => hostSees_of_call hset hfree) (fun i hlt => tableSees_of_get (.inr rfl)),
    htold, fun hc => absurd hc halloc, fun hc => absurd hc hget, fun _ v hv => hr v hv⟩

theorem guestSet (h : FlsInv s) (htold : Told s.history) (tid : ℕ) (hv : regs.rdx < 2 ^ 64) :
    FlsInv (s.next (.call tid .guestSet regs)) ∧
      Told (s.next (.call tid .guestSet regs)).history := by
  have halloc : FlsCall.guestSet ≠ .alloc := by decide
  have hset : FlsCall.guestSet ≠ .hostSet := by decide
  have hfree : FlsCall.guestSet ≠ .free := by decide
  have hget : FlsCall.guestSet ≠ .hostGet := by decide
  have hgget : FlsCall.guestSet ≠ .guestGet := by decide
  by_cases hi : regs.rcx < GUEST_FLS_SLOT_COUNT
  · obtain ⟨hva, hrw⟩ := h.word_va hi
    have heq : FlsCall.guestSet.serve ⟨regs, s.mem⟩ s.state =
        ((CpuEngine.mk regs (s.mem.set (s.state.guestFlsTableVa + regs.rcx * 8) 8
          regs.rdx)).returnFromWin64Api 1, s.state) := by
      show (encodeFlsSet _ _ _, s.state) = _
      rw [encodeFlsSet, if_neg (not_le.mpr hi)]
      dsimp only
      rw [hva, hrw.storeLe]
      rfl
    obtain ⟨r, hr, hnext⟩ := next_returned heq tid
    rw [hnext]
    refine ⟨⟨h.ready.set _ _, fun i hlt => ?_, fun i hlt => ?_,
      fun i hm => h.young i (allocated_of_call halloc hm), h.next⟩, htold,
      fun hc => absurd hc halloc, fun hc => absurd hc hget, fun hc => absurd hc hgget⟩
    · exact (h.host i hlt).trans (hostSees_of_call hset hfree).symm
    · refine (get_set_table hv _ _).trans ?_
      by_cases hin : i = regs.rcx
      · rw [if_pos hin]
        exact (if_pos ⟨.inr rfl, hin.symm⟩).symm
      · rw [if_neg hin, h.guest i hlt]
        exact (tableSees_of_index fun hc => hin hc.symm).symm
  · have heq : FlsCall.guestSet.serve ⟨regs, s.mem⟩ s.state =
        ((CpuEngine.mk regs s.mem).returnFromWin64Api 0, s.state) := by
      show (encodeFlsSet _ _ _, s.state) = _
      rw [encodeFlsSet, if_pos (not_lt.mp hi)]
    obtain ⟨r, hr, hnext⟩ := next_returned heq tid
    rw [hnext]
    refine ⟨h.unchanged (fun i hm => h.young i (allocated_of_call halloc hm))
      (fun i hlt => hostSees_of_call hset hfree) (fun i hlt => tableSees_of_index ?_),
      htold, fun hc => absurd hc halloc, fun hc => absurd hc hget, fun hc => absurd hc hgget⟩
    rintro (rfl : regs.rcx = i)
    exact hi hlt

/-- **A call keeps the list and the table what they were told.** -/
theorem step (h : FlsInv s) (htold : Told s.history) {x : FlsAction} (hx : FlsProper s x) :
    FlsInv (s.next x) ∧ Told (s.next x).history := by
  cases x with
  | elsewhere m => exact ⟨h.elsewhere hx, htold⟩
  | call tid c regs =>
    cases c with
    | alloc => exact h.alloc htold tid regs
    | free => exact h.free htold tid regs
    | hostSet => exact h.hostSet htold tid hx.2
    | hostGet => exact h.hostGet htold tid regs
    | guestSet => exact h.guestSet htold tid hx.2
    | guestGet => exact h.guestGet htold tid regs

end FlsInv

/-- **Every run**: reads answer what the part that is asked was told last. -/
theorem told_of_reach {s : FlsSystem} (hr : FlsReach s) : FlsInv s ∧ Told s.history := by
  refine GuardedReach.invariant (I := fun s => FlsInv s ∧ Told s.history) ?_ ?_ hr
  · intro s hs
    refine ⟨.boot hs, ?_⟩
    rw [hs.history]
    trivial
  · rintro s x _ ⟨h, htold⟩ hx rfl
    exact h.step htold hx

/-- Answers that are what was told are faithful when the threads that asked were the last to
tell. -/
theorem faithful_iff_of_told {hs : List FlsAnswer} (h : Told hs) : FlsFaithful hs ↔ SeesOwn hs := by
  induction hs with
  | nil => exact Iff.rfl
  | cons a hs ih =>
    obtain ⟨htold, halloc, hhost, hguest⟩ := h
    constructor
    · rintro ⟨hf, -, hget⟩
      refine ⟨(ih htold).mp hf, fun hsome ha => ?_⟩
      obtain ⟨v, hv⟩ := Option.isSome_iff_exists.mp hsome
      constructor
      · intro hc
        exact (hhost hc v hv).symm.trans (hget (.inl hc) ha v hv)
      · intro hc
        exact (hguest hc v hv).symm.trans (hget (.inr hc) ha v hv)
    · rintro ⟨hs, hown⟩
      refine ⟨(ih htold).mpr hs, halloc, fun hc ha v hv => ?_⟩
      obtain ⟨hown1, hown2⟩ := hown (Option.isSome_iff_exists.mpr ⟨v, hv⟩) ha
      rcases hc with hc | hc
      · exact (hhost hc v hv).trans (hown1 hc)
      · exact (hguest hc v hv).trans (hown2 hc)

/-- **When values belong to threads**: in a run, exactly if every thread that asked for the value of
an allocated index was the last to tell the part that served it. -/
theorem fls_faithful_iff {s : FlsSystem} (hr : FlsReach s) :
    FlsFaithful s.history ↔ SeesOwn s.history :=
  faithful_iff_of_told (told_of_reach hr).2

/-- A process with a table at 4096. -/
def flsStart : FlsSystem := ⟨⟨1, [], 4096⟩, .blank, []⟩

theorem flsStart_boot : FlsBoot flsStart where
  next := rfl
  slots := rfl
  table := by decide
  tableHi := by decide
  rw := fun _ _ _ => rfl
  zero := by decide +kernel
  history := rfl

/-- A call with two arguments. -/
def flsCall (tid : ℕ) (c : FlsCall) (rcx rdx : ℕ) : FlsAction :=
  .call tid c ⟨0, rcx, rdx, 0, 0, 65536, 0⟩

/-- A run of calls with words. -/
theorem flsReach_foldl {l : List (ℕ × FlsCall × ℕ × ℕ)}
    (hl : ∀ x ∈ l, x.2.2.1 < 2 ^ 64 ∧ x.2.2.2 < 2 ^ 64) :
    FlsReach ((l.map fun x => flsCall x.1 x.2.1 x.2.2.1 x.2.2.2).foldl FlsSystem.next
      flsStart) := by
  suffices h : ∀ s, FlsReach s → FlsReach ((l.map fun x =>
      flsCall x.1 x.2.1 x.2.2.1 x.2.2.2).foldl FlsSystem.next s) from h _ (.init flsStart_boot)
  induction l with
  | nil => exact fun s hs => hs
  | cons x l ih =>
    intro s hs
    have hx : FlsProper s (flsCall x.1 x.2.1 x.2.2.1 x.2.2.2) := hl x List.mem_cons_self
    exact ih (fun y hy => hl y (List.mem_cons_of_mem _ hy)) _ (.step hs hx rfl)

/-- Two threads with an index each, one served in the guest and one by the host. -/
theorem fls_faithful_two :
    FlsFaithful ((([(1, .alloc, 0, 0), (2, .alloc, 0, 0), (1, .guestSet, 1, 5),
      (2, .hostSet, 2, 7), (1, .guestGet, 1, 0), (2, .hostGet, 2, 0)] :
        List (ℕ × FlsCall × ℕ × ℕ)).map fun x => flsCall x.1 x.2.1 x.2.2.1 x.2.2.2).foldl
          FlsSystem.next flsStart).history :=
  (fls_faithful_iff (flsReach_foldl (by decide))).mpr (by decide +kernel)

/-- **A thread finds what another one stored.** -/
theorem not_fls_faithful : ¬∀ s, FlsReach s → FlsFaithful s.history := by
  intro h
  have hrun := h _ (flsReach_foldl (l := [(1, .alloc, 0, 0), (1, .hostSet, 1, 5),
    (2, .hostGet, 1, 0)]) (by decide))
  revert hrun
  decide +kernel

end Wie
