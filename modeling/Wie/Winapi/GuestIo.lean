import Wie.Winapi.GuestTable
import Wie.Winapi.PlainFile

/-!
# Guest routines for files

`SetFilePointer`, `GetFileSize` and short calls of `ReadFile` may be answered by routines in the
guest. They look the handle up in the guest table and work on its slot and its mirror, and go to the
host when they cannot answer. Registers that a routine saves and restores are left out.

## Main definitions

* `scanTable` — the loop over the slots
* `repMovs`, `copyBytes` — a copy by string instructions
* `guestReadFile`, `guestSetFilePointer`, `guestGetFileSize`
* `ServedApi`, `servedCall` — a call, and who answers it

## Main results

* `TableAt.scanTable_eq_some`, `TableAt.scanTable_eq_none` — what the loop finds
* `copyBytes_spec` — the copy, when source and target are apart
-/

namespace Wie

open Flat

/-- Reads from this size on go to the host. -/
def LARGE_READ_HOST_THRESHOLD : ℕ := 64

/-- How a routine ends. -/
inductive RoutineEnd
  /-- A memory access faults. -/
  | fault
  /-- A jump to the host. -/
  | fallback
  /-- Back to the caller. -/
  | ret (rax : ℕ)
deriving DecidableEq

/-- The address of the first slot that has the handle and is valid. -/
def scanTable (m : Flat) (tableVa handle : ℕ) : List ℕ → Except Unit (Option ℕ)
  | [] => .ok none
  | i :: is =>
    let rbp := wrappingAdd tableVa (i * GUEST_IO_SLOT_SIZE)
    match m.loadLe rbp 8 with
    | none => .error ()
    | some existing =>
      if existing ≠ handle then scanTable m tableVa handle is
      else
        match m.loadLe (wrappingAdd rbp 32) 8 with
        | none => .error ()
        | some flags => if flags % 2 = 0 then scanTable m tableVa handle is else .ok (some rbp)

/-- `rep movs` with items of `w` bytes: whether it comes to its end. -/
def repMovs (w : ℕ) : ℕ → ℕ → ℕ → Flat → Bool × Flat
  | 0, _, _, m => (true, m)
  | count + 1, rsi, rdi, m =>
    match m.load rsi w with
    | none => (false, m)
    | some item =>
      match m.store rdi item with
      | none => (false, m)
      | some m => repMovs w count (wrappingAdd rsi w) (wrappingAdd rdi w) m

/-- The copy of a read: items of eight bytes, then the bytes that are left. -/
def copyBytes (n rsi rdi : ℕ) (m : Flat) : Bool × Flat :=
  match repMovs 8 (n / 8) rsi rdi m with
  | (false, m) => (false, m)
  | (true, m) =>
    repMovs 1 (n % 8) (wrappingAdd rsi (8 * (n / 8))) (wrappingAdd rdi (8 * (n / 8))) m

/-- The count is stored, and the routine returns. -/
def finishRead (r9 n : ℕ) (m : Flat) : RoutineEnd × Flat :=
  match writeGuestU32 m r9 n with
  | none => (.fault, m)
  | some m => (.ret 1, m)

/-- The routine for `ReadFile`, once the slot at `rbp` is found and read. -/
def readFromSlot (e : CpuEngine) (rbp dataVa cursor size : ℕ) : RoutineEnd × Flat :=
  -- the subtraction borrows when the cursor is past the end
  let n := if size < cursor then 0 else min (e.regs.r8 % 2 ^ 32) (size - cursor)
  if n = 0 then finishRead e.regs.r9 n e.mem
  else
    match copyBytes n (wrappingAdd dataVa cursor) e.regs.rdx e.mem with
    | (false, m) => (.fault, m)
    | (true, m) =>
      match m.loadLe (wrappingAdd rbp 24) 8 with
      | none => (.fault, m)
      | some cursor =>
        match m.storeLe (wrappingAdd rbp 24) 8 (wrappingAdd cursor n) with
        | none => (.fault, m)
        | some m => finishRead e.regs.r9 n m

/-- `build_readfile_bytes`. -/
def guestReadFile (tableVa : ℕ) (e : CpuEngine) : RoutineEnd × Flat :=
  let m := e.mem
  if e.regs.r8 % 2 ^ 32 ≥ LARGE_READ_HOST_THRESHOLD then (.fallback, m)
  else
    match scanTable m tableVa e.regs.rcx (List.range GUEST_IO_MAX_SLOTS) with
    | .error () => (.fault, m)
    | .ok none => (.fallback, m)
    | .ok (some rbp) =>
      match m.loadLe (wrappingAdd rbp 8) 8, m.loadLe (wrappingAdd rbp 24) 8,
          m.loadLe (wrappingAdd rbp 16) 8 with
      | some dataVa, some cursor, some size => readFromSlot e rbp dataVa cursor size
      | _, _, _ => (.fault, m)

/-- `rax + rsi`, for a signed 32-bit distance that was extended to 64 bits. -/
def addDistance (base distance : ℕ) : ℕ := (((base : ℤ) + signed32 distance) % 2 ^ 64).toNat

/-- `write_setfilepointer_impl`. -/
def guestSetFilePointer (tableVa : ℕ) (e : CpuEngine) : RoutineEnd × Flat :=
  let m := e.mem
  match scanTable m tableVa e.regs.rcx (List.range GUEST_IO_MAX_SLOTS) with
  | .error () => (.fault, m)
  | .ok none => (.fallback, m)
  | .ok (some rbp) =>
    let method := e.regs.r9 % 2 ^ 32
    if method ≠ FILE_BEGIN ∧ method ≠ FILE_CURRENT ∧ method ≠ FILE_END then (.fallback, m)
    else
      let base :=
        if method = FILE_BEGIN then some 0
        else if method = FILE_CURRENT then m.loadLe (wrappingAdd rbp 24) 8
        else m.loadLe (wrappingAdd rbp 16) 8
      match base with
      | none => (.fault, m)
      | some base =>
        let position := addDistance base e.regs.rdx
        -- `js`
        if position ≥ 2 ^ 63 then (.fallback, m)
        else
          match m.storeLe (wrappingAdd rbp 24) 8 position with
          | none => (.fault, m)
          | some m =>
            match writeGuestU32 m e.regs.r8 (position / 2 ^ 32) with
            | none => (.fault, m)
            | some m => (.ret (position % 2 ^ 32), m)

/-- `write_getfilesize_impl`. -/
def guestGetFileSize (tableVa : ℕ) (e : CpuEngine) : RoutineEnd × Flat :=
  let m := e.mem
  match scanTable m tableVa e.regs.rcx (List.range GUEST_IO_MAX_SLOTS) with
  | .error () => (.fault, m)
  | .ok none => (.fallback, m)
  | .ok (some rbp) =>
    match m.loadLe (wrappingAdd rbp 16) 8 with
    | none => (.fault, m)
    | some size =>
      match writeGuestU32 m e.regs.rdx (size / 2 ^ 32) with
      | none => (.fault, m)
      | some m => (.ret (size % 2 ^ 32), m)

/-- A call, and who answers it. -/
inductive ServedApi
  /-- The handler of the host. -/
  | host (api : FileApi)
  /-- The routine for `ReadFile`. -/
  | guestReadFile
  /-- The routine for `SetFilePointer`. -/
  | guestSetFilePointer
  /-- The routine for `GetFileSize`. -/
  | guestGetFileSize
deriving DecidableEq

/-- The function that is called. -/
def ServedApi.api : ServedApi → FileApi
  | .host api => api
  | .guestReadFile => .readFile
  | .guestSetFilePointer => .setFilePointer
  | .guestGetFileSize => .getFileSize

/-- The end of a routine; the host takes over where it could not answer. -/
def afterRoutine (api : FileApi) (regs : Regs) (s : FileState) (r : RoutineEnd × Flat) : Handled :=
  match r with
  | (.fault, m) => (.error, ⟨regs, m⟩, s)
  | (.fallback, m) => fileCall api ⟨regs, m⟩ s
  | (.ret rax, m) => returnWith ⟨regs, m⟩ s rax

/-- A call. -/
def servedCall (tableVa : ℕ) (call : ServedApi) (e : CpuEngine) (s : FileState) : Handled :=
  match call with
  | .host api => fileCall api e s
  | .guestReadFile => afterRoutine .readFile e.regs s (guestReadFile tableVa e)
  | .guestSetFilePointer => afterRoutine .setFilePointer e.regs s (guestSetFilePointer tableVa e)
  | .guestGetFileSize => afterRoutine .getFileSize e.regs s (guestGetFileSize tableVa e)

/-! ### The loop over the slots -/

variable {m m' : Flat} {tableVa handle i : ℕ}

namespace TableAt

theorem scanTable_slot (h : TableAt m tableVa) (hi : i < GUEST_IO_MAX_SLOTS) :
    wrappingAdd tableVa (i * GUEST_IO_SLOT_SIZE) = slotAddr tableVa i := by
  have hb := slotAddr_bounds tableVa hi
  have htop := h.top
  have hlt : slotAddr tableVa i < 2 ^ 64 := by omega
  exact Nat.mod_eq_of_lt hlt

/-- **A handle that no slot has** is not found. -/
theorem scanTable_eq_none (h : TableAt m tableVa) (is : List ℕ)
    (his : ∀ i ∈ is, i < GUEST_IO_MAX_SLOTS ∧ slotField m tableVa i 0 ≠ handle) :
    scanTable m tableVa handle is = .ok none := by
  induction is with
  | nil => rfl
  | cons i is ih =>
    obtain ⟨hi, hne⟩ := his i (.head _)
    rw [scanTable, h.scanTable_slot hi, h.loadHandle hi]
    dsimp only
    rw [if_pos hne]
    exact ih fun j hj => his j (.tail _ hj)

/-- **A handle that one slot has**, which is valid, is found there. -/
theorem scanTable_eq_some (h : TableAt m tableVa) (hi : i < GUEST_IO_MAX_SLOTS)
    (hhandle : slotField m tableVa i 0 = handle)
    (hvalid : slotField m tableVa i 32 = GUEST_IO_FLAG_VALID)
    (is : List ℕ) (hmem : i ∈ is)
    (his : ∀ j ∈ is, j < GUEST_IO_MAX_SLOTS ∧ (j ≠ i → slotField m tableVa j 0 ≠ handle)) :
    scanTable m tableVa handle is = .ok (some (slotAddr tableVa i)) := by
  induction is with
  | nil => cases hmem
  | cons j is ih =>
    obtain ⟨hj, hne⟩ := his j (.head _)
    rw [scanTable, h.scanTable_slot hj, h.loadHandle hj]
    dsimp only
    by_cases hji : j = i
    · subst hji
      rw [if_neg (not_not.mpr hhandle), h.wrap hj (by decide),
        (h.slotRw hj (by decide)).loadLe, show m.get _ 8 = GUEST_IO_FLAG_VALID from hvalid]
      rfl
    · rw [if_pos (hne hji)]
      refine ih ?_ fun k hk => his k (.tail _ hk)
      rcases List.mem_cons.mp hmem with rfl | hmem
      · exact absurd rfl hji
      · exact hmem

end TableAt

/-! ### Copies -/

/-- **A copy between ranges that are apart** stores what the source holds, or faults. -/
theorem repMovs_spec {w : ℕ} : ∀ (count src dst : ℕ) {m : Flat}, src + w * count < 2 ^ 64 →
    dst + w * count < 2 ^ 64 → (∀ x, src ≤ x → x < src + w * count → m.readable x = true) →
    (src + w * count ≤ dst ∨ dst + w * count ≤ src) →
    match m.store dst (m.bytes src (w * count)) with
    | some m' => repMovs w count src dst m = (true, m')
    | none => (repMovs w count src dst m).1 = false := by
  intro count
  induction count with
  | zero =>
    intro src dst m _ _ _ _
    rw [Nat.mul_zero, show m.bytes src 0 = [] from rfl, Rw.store [] (fun x h1 h2 => by
      rw [List.length_nil] at h2
      omega), put_nil]
    rfl
  | succ count ih =>
    intro src dst m hs hd hread hapart
    rw [Nat.mul_succ, Nat.add_comm (w * count) w] at *
    rw [repMovs, load_eq fun x h1 h2 => hread x h1 (by omega), bytes_add, store_append,
      length_bytes]
    dsimp only
    cases hst : m.store dst (m.bytes src w) with
    | none => rfl
    | some m₁ =>
      obtain ⟨rfl, -⟩ := store_eq_some hst
      dsimp only [Option.bind_some]
      rw [wrappingAdd, wrappingAdd, Nat.mod_eq_of_lt (by omega), Nat.mod_eq_of_lt (by omega)]
      have hrest : (m.put dst (m.bytes src w)).bytes (src + w) (w * count) =
          m.bytes (src + w) (w * count) := bytes_congr fun x h1 h2 =>
        byte_put_of_notMem (by rw [length_bytes]; omega)
      rw [← hrest]
      exact ih (src + w) (dst + w) (by omega) (by omega)
        (fun x h1 h2 => hread x (by omega) (by omega)) (by omega)

/-- **The copy of a read** stores what the source holds, or faults. -/
theorem copyBytes_spec {n src dst : ℕ} {m : Flat} (hs : src + n < 2 ^ 64) (hd : dst + n < 2 ^ 64)
    (hread : ∀ x, src ≤ x → x < src + n → m.readable x = true)
    (hapart : src + n ≤ dst ∨ dst + n ≤ src) :
    match m.store dst (m.bytes src n) with
    | some m' => copyBytes n src dst m = (true, m')
    | none => (copyBytes n src dst m).1 = false := by
  have h1 := @repMovs_spec 8 (n / 8) src dst m (by omega) (by omega)
    (fun x h1 h2 => hread x h1 (by omega)) (by omega)
  have hn : n = 8 * (n / 8) + n % 8 := (Nat.div_add_mod n 8).symm
  have hstore : m.store dst (m.bytes src n) = (m.store dst (m.bytes src (8 * (n / 8)))).bind
      fun m₁ => m₁.store (dst + 8 * (n / 8)) (m.bytes (src + 8 * (n / 8)) (n % 8)) := by
    conv_lhs => rw [hn, bytes_add, store_append, length_bytes]
  rw [hstore, copyBytes]
  cases hst : m.store dst (m.bytes src (8 * (n / 8))) with
  | none =>
    rw [hst] at h1
    dsimp only [Option.bind_none] at h1 ⊢
    generalize repMovs 8 (n / 8) src dst m = r at h1
    obtain ⟨ok, m₁⟩ := r
    obtain rfl : ok = false := h1
    rfl
  | some m₁ =>
    rw [hst] at h1
    dsimp only [Option.bind_some] at h1 ⊢
    rw [h1]
    dsimp only
    obtain ⟨rfl, -⟩ := store_eq_some hst
    have hsrc : wrappingAdd src (8 * (n / 8)) = src + 8 * (n / 8) := Nat.mod_eq_of_lt (by omega)
    have hdst : wrappingAdd dst (8 * (n / 8)) = dst + 8 * (n / 8) := Nat.mod_eq_of_lt (by omega)
    rw [hsrc, hdst]
    have hrest : (m.put dst (m.bytes src (8 * (n / 8)))).bytes (src + 8 * (n / 8)) (1 * (n % 8)) =
        m.bytes (src + 8 * (n / 8)) (n % 8) := by
      rw [Nat.one_mul]
      exact bytes_congr fun x h1 h2 => byte_put_of_notMem (by rw [length_bytes]; omega)
    rw [← hrest]
    exact repMovs_spec (n % 8) _ _ (by omega) (by omega)
      (fun x h1 h2 => hread x (by omega) (by omega)) (by omega)

/-! ### Positions -/

/-- Where a seek starts. -/
def seekBase (size cursor method : ℕ) : ℕ :=
  if method = FILE_BEGIN then 0 else if method = FILE_CURRENT then cursor else size

/-- **A sum without a sign** is the position that the host computes. -/
theorem seekTarget_of_lt {size cursor low method : ℕ} (hb : seekBase size cursor method < 2 ^ 63)
    (h : addDistance (seekBase size cursor method) low < 2 ^ 63) :
    seekTarget size cursor low method =
      some (some (addDistance (seekBase size cursor method) low)) := by
  have hd := signed32_bounds low
  rw [seekTarget, ← seekBase]
  rw [addDistance] at h ⊢
  generalize seekBase size cursor method = base at hb h
  generalize signed32 low = d at hd h
  dsimp only
  rw [if_neg (by omega), if_neg (by omega), if_neg (by omega)]
  congr 2
  omega

/-- **A sum with a sign** is a position that the host rejects. -/
theorem seekTarget_of_le {size cursor low method : ℕ} (hb : seekBase size cursor method < 2 ^ 63)
    (h : 2 ^ 63 ≤ addDistance (seekBase size cursor method) low) :
    (seekTarget size cursor low method).join = none := by
  have hd := signed32_bounds low
  rw [seekTarget, ← seekBase]
  rw [addDistance] at h
  generalize seekBase size cursor method = base at hb h
  generalize signed32 low = d at hd h
  dsimp only
  rw [if_neg (by omega)]
  split
  · rfl
  · rw [if_pos (by omega)]
    rfl

end Wie
