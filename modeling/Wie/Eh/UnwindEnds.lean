import Wie.Eh.Dispatch
import Wie.Eh.LsdaShifts

/-!
# Unwinding ends

Nothing counts how often `virtual_unwind` calls itself for a chained info, and chained infos may go
in a circle. But before each of these calls a return address is popped from guest memory, so that
the stack pointer rises by eight bytes, and memory ends with the 64-bit addresses. The searches over
frames count to `MAX_FRAMES`, and those of an LSDA stop at the end of the table. What does not hold
of them is that every shift amount is below 64.

## Main definitions

* `GuestBytes` — memory with 64-bit addresses
* `unwindTurn`, `UnwindReturns` — one call of `virtual_unwind`, and how many calls there are
* `FrameReader.searchVisited`, `unwindVisited` — the frames that are unwound
* `UnwindingEnds` — everything ends, and the shift amounts are in range

## Main results

* `exists_unwindReturns`, `UnwindReturns.virtualUnwind_eq` — the calls of `virtual_unwind`
* `unwindingEnds_iff` — when the shift amounts are in range
-/

namespace Wie

/-- Guest memory: an address has 64 bits. -/
structure GuestBytes where
  /-- The byte at an address. -/
  bytes : ByteMap
  /-- There is nothing beyond. -/
  bound : ∀ x, 2 ^ 64 ≤ x → bytes x = none

namespace GuestBytes

/-- The reader callback. -/
def read (m : GuestBytes) : MemRead := m.bytes.read

/-- What can be read ends with the addresses. -/
theorem end_le (m : GuestBytes) {a n : ℕ} {bs : List UInt8} (hn : 0 < n)
    (h : m.read a n = some bs) : a + n ≤ 2 ^ 64 := by
  obtain ⟨hlen, hbs⟩ := ByteMap.read_eq_some.mp h
  have hlast := hbs (n - 1) (by omega)
  by_contra hlt
  rw [m.bound _ (by omega)] at hlast
  cases hlast

end GuestBytes

variable {read : MemRead} {imageBase : ℕ}

/-! ### One call of `virtual_unwind` -/

/-- What a call comes to. -/
inductive UnwindTurn
  /-- It returns. -/
  | returns (r : Option UnwindResult)
  /-- It calls itself for a chained info. -/
  | chains (rva : ℕ) (ctx : UnwindContext)

/-- The codes undone and the return address popped, with the header and where the data is. -/
def unwindFrame (read : MemRead) (imageBase : ℕ) (entry : RuntimeFunction) (ctx : UnwindContext) :
    Option (UnwindInfo × ℕ × UnwindContext) := do
  let unwindVa := satAdd imageBase entry.unwindData
  let header ← read unwindVa 4
  let info ← UnwindInfo.fromBytes header
  let codes ← read (satAdd unwindVa 4) (info.countOfCodes * 2)
  let slots := slotsOf codes
  let f ← applyCodes read (saveBase info slots ctx) 0 slots ⟨ctx.rsp.toNat, ctx.gpr, ctx.xmm⟩
  let ctx ← popReturn read f
  some (info, satAdd unwindVa info.headerSize, ctx)

/-- The chained info, 0 for none. -/
def chainRva (read : MemRead) (info : UnwindInfo) (dataOff : ℕ) : Option ℕ :=
  if info.flags &&& UnwindInfo.FLAG_CHAININFO ≠ 0 then (read dataOff 4).map fromLe else some 0

/-- One call. -/
def unwindTurn (read : MemRead) (imageBase : ℕ) (entry : RuntimeFunction) (ctx : UnwindContext) :
    UnwindTurn :=
  if entry.unwindData = 0 then
    .returns ((popReturn read ⟨ctx.rsp.toNat, ctx.gpr, ctx.xmm⟩).map fun c =>
      ⟨c, none, none, none⟩)
  else
    match unwindFrame read imageBase entry ctx with
    | none => .returns none
    | some (info, dataOff, c) =>
      match chainRva read info dataOff with
      | none => .returns none
      | some rva => if rva ≠ 0 then .chains rva c else .returns (handlerResult read info dataOff c)

/-- **The calls are those of `virtual_unwind`.** -/
theorem virtualUnwind_succ (fuel : ℕ) (entry : RuntimeFunction) (ctx : UnwindContext) :
    virtualUnwind read imageBase (fuel + 1) entry ctx =
      match unwindTurn read imageBase entry ctx with
      | .returns r => r
      | .chains rva c => virtualUnwind read imageBase fuel { entry with unwindData := rva } c := by
  rw [virtualUnwind, unwindTurn]
  by_cases h0 : entry.unwindData = 0
  · rw [if_pos h0, if_pos h0]
    cases popReturn read ⟨ctx.rsp.toNat, ctx.gpr, ctx.xmm⟩ <;> rfl
  rw [if_neg h0, if_neg h0, unwindFrame]
  simp only [Option.bind_eq_bind]
  cases hheader : read (satAdd imageBase entry.unwindData) 4 with
  | none => rfl
  | some header =>
  simp only [Option.bind_some]
  cases hinfo : UnwindInfo.fromBytes header with
  | none => rfl
  | some info =>
  simp only [Option.bind_some]
  cases hcodes : read (satAdd (satAdd imageBase entry.unwindData) 4) (info.countOfCodes * 2) with
  | none => rfl
  | some codes =>
  simp only [Option.bind_some]
  cases hf : applyCodes read (saveBase info (slotsOf codes) ctx) 0 (slotsOf codes)
    ⟨ctx.rsp.toNat, ctx.gpr, ctx.xmm⟩ with
  | none => rfl
  | some f =>
  simp only [Option.bind_some]
  cases hpop : popReturn read f with
  | none => rfl
  | some c =>
  simp only [Option.bind_some, chainRva]
  by_cases hflag : info.flags &&& UnwindInfo.FLAG_CHAININFO ≠ 0
  · rw [if_pos hflag, if_pos hflag]
    cases hchain : read (satAdd (satAdd imageBase entry.unwindData) info.headerSize) 4 with
    | none => rfl
    | some chain =>
      simp only [Option.bind_some, Option.map_some]
      split <;> rfl
  · rw [if_neg hflag, if_neg hflag]
    rfl

/-! ### The stack pointer rises -/

namespace Unwinding

theorem rsp_loadGpr {f g : Unwinding} {reg : Fin 16} {va : ℕ}
    (h : f.loadGpr read reg va = some g) : g.rsp = f.rsp := by
  rw [loadGpr, Option.bind_eq_bind, Option.bind_eq_some_iff] at h
  obtain ⟨b, -, h⟩ := h
  cases h
  rfl

theorem rsp_loadXmm {f g : Unwinding} {reg : Fin 16} {va : ℕ}
    (h : f.loadXmm read reg va = some g) : g.rsp = f.rsp := by
  rw [loadXmm, Option.bind_eq_bind, Option.bind_eq_some_iff] at h
  obtain ⟨b, -, h⟩ := h
  cases h
  rfl

/-- Not below, and an address. -/
def Above (f g : Unwinding) : Prop := f.rsp ≤ g.rsp ∧ g.rsp < 2 ^ 64

theorem above_of_eq {f g : Unwinding} (hf : f.rsp < 2 ^ 64) (h : g.rsp = f.rsp) : f.Above g := by
  rw [Above, h]
  exact ⟨le_rfl, hf⟩

theorem above_raise {f g : Unwinding} (hf : f.rsp < 2 ^ 64) (h : g.rsp = f.rsp) (n : ℕ) :
    f.Above (g.raise n) := by
  rw [Above, raise, h]
  exact ⟨le_satAdd hf, satAdd_lt _ _⟩

end Unwinding

/-- One code does not lower it. -/
theorem applyCode_above {fpRsp k : ℕ} {c : UnwindCode} {rest : List Slot} {f g : Unwinding}
    (hf : f.rsp < 2 ^ 64) (h : applyCode read fpRsp c rest f = some (g, k)) : f.Above g := by
  unfold applyCode at h
  split at h
  case h_2 | h_3 | h_9 =>
    cases h
    exact Unwinding.above_raise hf rfl _
  case h_4 | h_10 =>
    cases h
    exact Unwinding.above_of_eq hf rfl
  case h_1 =>
    rw [Option.bind_eq_bind, Option.bind_eq_some_iff] at h
    obtain ⟨g', hg, h⟩ := h
    cases h
    exact Unwinding.above_raise hf (Unwinding.rsp_loadGpr hg) 8
  case h_5 | h_6 =>
    rw [Option.bind_eq_bind, Option.bind_eq_some_iff] at h
    obtain ⟨g', hg, h⟩ := h
    cases h
    exact Unwinding.above_of_eq hf (Unwinding.rsp_loadGpr hg)
  case h_7 | h_8 =>
    rw [Option.bind_eq_bind, Option.bind_eq_some_iff] at h
    obtain ⟨g', hg, h⟩ := h
    cases h
    exact Unwinding.above_of_eq hf (Unwinding.rsp_loadXmm hg)

theorem applyCodes_above {fpRsp : ℕ} {g : Unwinding} : ∀ {skip : ℕ} {slots : List Slot}
    {f : Unwinding}, f.rsp < 2 ^ 64 → applyCodes read fpRsp skip slots f = some g → f.Above g
  | _, [], f, hf, h => by
    rw [applyCodes] at h
    cases h
    exact Unwinding.above_of_eq hf rfl
  | k + 1, _ :: rest, f, hf, h => by
    rw [applyCodes] at h
    exact applyCodes_above hf h
  | 0, s :: rest, f, hf, h => by
    rw [applyCodes, Option.bind_eq_bind, Option.bind_eq_some_iff] at h
    obtain ⟨⟨f', k⟩, hcode, h⟩ := h
    have h1 := applyCode_above hf hcode
    have h2 := applyCodes_above h1.2 h
    exact ⟨h1.1.trans h2.1, h2.2⟩

variable {entry : RuntimeFunction} {ctx : UnwindContext}

/-- **Popping takes eight readable bytes**: the stack pointer rises by them, or to the last
address. -/
theorem popReturn_rises (m : GuestBytes) {f : Unwinding} {c : UnwindContext}
    (h : popReturn m.read f = some c) :
    f.rsp + 8 ≤ 2 ^ 64 ∧ (f.rsp + 8 ≤ c.rsp.toNat ∨ c.rsp.toNat = 2 ^ 64 - 1) := by
  rw [popReturn, Option.bind_eq_bind, Option.bind_eq_some_iff] at h
  obtain ⟨b, hread, h⟩ := h
  cases h
  have hend := m.end_le (by decide) hread
  have hlt := satAdd_lt f.rsp 8
  rw [BitVec.toNat_ofNat, Nat.mod_eq_of_lt hlt, satAdd]
  omega

theorem unwindFrame_rises (m : GuestBytes) {info : UnwindInfo} {dataOff : ℕ} {c : UnwindContext}
    (h : unwindFrame m.read imageBase entry ctx = some (info, dataOff, c)) :
    ctx.rsp.toNat + 8 ≤ 2 ^ 64 ∧
      (ctx.rsp.toNat + 8 ≤ c.rsp.toNat ∨ c.rsp.toNat = 2 ^ 64 - 1) := by
  simp only [unwindFrame, Option.bind_eq_bind, Option.bind_eq_some_iff] at h
  obtain ⟨header, -, info', -, codes, -, f, hf, c', hpop, h⟩ := h
  cases h
  have habove := (applyCodes_above ctx.rsp.isLt hf).1
  have hpop := popReturn_rises m hpop
  simp only at habove
  omega

/-- How many more calls there can be. -/
def callsLeft (ctx : UnwindContext) : ℕ := (2 ^ 64 - ctx.rsp.toNat) / 8

theorem callsLeft_lt (m : GuestBytes) {rva : ℕ} {c : UnwindContext}
    (h : unwindTurn m.read imageBase entry ctx = .chains rva c) : callsLeft c < callsLeft ctx := by
  rw [unwindTurn] at h
  split at h
  · cases h
  split at h
  · cases h
  · rename_i info dataOff c' hframe
    have hrise := unwindFrame_rises m hframe
    split at h
    · cases h
    · split at h
      · cases h
        rw [callsLeft, callsLeft]
        omega
      · cases h

/-! ### All calls of `virtual_unwind` -/

/-- The function returns `r` after `n` recursive calls. -/
inductive UnwindReturns (read : MemRead) (imageBase : ℕ) :
    RuntimeFunction → UnwindContext → (n : ℕ) → (r : Option UnwindResult) → Prop
  /-- At once. -/
  | now {entry ctx r} : unwindTurn read imageBase entry ctx = .returns r →
      UnwindReturns read imageBase entry ctx 0 r
  /-- What the call for the chained info returns. -/
  | later {entry ctx rva c n r} : unwindTurn read imageBase entry ctx = .chains rva c →
      UnwindReturns read imageBase { entry with unwindData := rva } c n r →
        UnwindReturns read imageBase entry ctx (n + 1) r

/-- **It returns**, after as many calls as return addresses fit above the stack pointer. -/
theorem exists_unwindReturns (m : GuestBytes) (imageBase : ℕ) (entry : RuntimeFunction)
    (ctx : UnwindContext) :
    ∃ n r, UnwindReturns m.read imageBase entry ctx n r ∧ n ≤ callsLeft ctx := by
  induction hk : callsLeft ctx using Nat.strong_induction_on generalizing entry ctx with
  | _ k ih =>
    subst hk
    cases hturn : unwindTurn m.read imageBase entry ctx with
    | returns r => exact ⟨0, r, .now hturn, Nat.zero_le _⟩
    | chains rva c =>
      have hlt := callsLeft_lt m hturn
      obtain ⟨n, r, hr, hn⟩ := ih _ hlt { entry with unwindData := rva } c rfl
      exact ⟨n + 1, r, .later hturn hr, by omega⟩

/-- What it returns is what the model returns, once there is enough fuel. -/
theorem UnwindReturns.virtualUnwind_eq {n : ℕ} {r : Option UnwindResult}
    (h : UnwindReturns read imageBase entry ctx n r) {fuel : ℕ} (hn : n < fuel) :
    virtualUnwind read imageBase fuel entry ctx = r := by
  induction h generalizing fuel with
  | now hturn =>
    obtain ⟨k, rfl⟩ := Nat.exists_eq_add_of_lt hn
    rw [virtualUnwind_succ, hturn]
  | later hturn _ ih =>
    obtain ⟨k, rfl⟩ := Nat.exists_eq_add_of_lt hn
    rw [virtualUnwind_succ, hturn]
    exact ih (by omega)

/-! ### Frames -/

section

variable {r : FrameReader} {payload : ThrowPayload} {targetIp : BitVec 64}
  {targetFrame : Option (BitVec 64)} {unwindOne : UnwindContext → Option (Unwound × Option ℕ)}

/-- The frames that `searchFrames` unwinds. -/
def FrameReader.searchVisited (r : FrameReader) (payload : ThrowPayload) :
    (rounds : ℕ) → UnwindContext → List UnwindContext
  | 0, _ => []
  | rounds + 1, frame =>
    frame ::
      match r.unwindOne frame with
      | none => []
      | some (u, hdata) =>
        if (hdata.bind fun h => r.resolveLandingPad frame.rip u h payload).isSome then []
        else if u.ctx.rip = 0 ∨ u.ctx.rsp = 0 then []
        else r.searchVisited payload rounds u.ctx

/-- The frames that `unwindFrames` unwinds. -/
def unwindVisited (r : FrameReader) (targetIp : BitVec 64) (targetFrame : Option (BitVec 64)) :
    (rounds : ℕ) → UnwindContext → List UnwindContext
  | 0, _ => []
  | rounds + 1, frame =>
    if targetFrame = some frame.rsp then []
    else
      frame ::
        match r.unwindOne frame with
        | none => []
        | some (u, _) =>
          if u.ctx.rip = 0 then []
          else if targetFrame = some u.ctx.rsp ∨ (targetIp ≠ 0 ∧ u.ctx.rip = targetIp) then []
          else unwindVisited r targetIp targetFrame rounds u.ctx

theorem length_searchVisited : ∀ (rounds : ℕ) (frame : UnwindContext),
    (r.searchVisited payload rounds frame).length ≤ rounds
  | 0, _ => Nat.le_refl 0
  | rounds + 1, frame => by
    rw [FrameReader.searchVisited, List.length_cons]
    refine Nat.succ_le_succ ?_
    split
    · exact Nat.zero_le _
    · split
      · exact Nat.zero_le _
      · split
        · exact Nat.zero_le _
        · exact length_searchVisited rounds _

theorem length_unwindVisited : ∀ (rounds : ℕ) (frame : UnwindContext),
    (unwindVisited r targetIp targetFrame rounds frame).length ≤ rounds
  | 0, _ => Nat.le_refl 0
  | rounds + 1, frame => by
    rw [unwindVisited]
    split
    · exact Nat.zero_le _
    rw [List.length_cons]
    refine Nat.succ_le_succ ?_
    split
    · exact Nat.zero_le _
    · split
      · exact Nat.zero_le _
      · split
        · exact Nat.zero_le _
        · exact length_unwindVisited rounds _

/-- **No other frame is unwound** by the search: what the reader makes of it does not matter. -/
theorem searchFrames_congr : ∀ {rounds : ℕ} {frame : UnwindContext} (steps : List SehStep),
    (∀ c ∈ r.searchVisited payload rounds frame, unwindOne c = r.unwindOne c) →
      ({ r with unwindOne } : FrameReader).searchFrames payload rounds frame steps =
        r.searchFrames payload rounds frame steps
  | 0, _, _, _ => rfl
  | rounds + 1, frame, steps, h => by
    rw [FrameReader.searchVisited, List.forall_mem_cons] at h
    obtain ⟨hframe, h⟩ := h
    rw [FrameReader.searchFrames, FrameReader.searchFrames]
    simp only [hframe]
    cases hu : r.unwindOne frame with
    | none => rfl
    | some p =>
      obtain ⟨u, hdata⟩ := p
      simp only [hu] at h
      dsimp only
      cases hpad : hdata.bind fun h => r.resolveLandingPad frame.rip u h payload with
      | some pad => rfl
      | none =>
        dsimp only
        split
        · rfl
        · rename_i hstop
          rw [hpad, if_neg (by simp), if_neg hstop] at h
          exact searchFrames_congr _ h

/-- Nor by the forced unwind. -/
theorem unwindFrames_congr : ∀ {rounds : ℕ} {frame : UnwindContext},
    (∀ c ∈ unwindVisited r targetIp targetFrame rounds frame, unwindOne c = r.unwindOne c) →
      unwindFrames ({ r with unwindOne } : FrameReader) targetIp targetFrame rounds frame =
        unwindFrames r targetIp targetFrame rounds frame
  | 0, _, _ => rfl
  | rounds + 1, frame, h => by
    rw [unwindVisited] at h
    rw [unwindFrames, unwindFrames]
    split
    · rfl
    rename_i hframe
    rw [if_neg hframe, List.forall_mem_cons] at h
    obtain ⟨hone, h⟩ := h
    simp only [hone]
    cases hu : r.unwindOne frame with
    | none => rfl
    | some p =>
      simp only [hu] at h
      dsimp only
      split
      · rfl
      rename_i hrip
      rw [if_neg hrip] at h
      split
      · rfl
      rename_i htarget
      rw [if_neg htarget] at h
      exact unwindFrames_congr h

end

/-! ### Everything -/

/-- What the functions are called with. -/
structure UnwindQuery where
  /-- Base of the image. -/
  imageBase : ℕ
  /-- The function to unwind. -/
  entry : RuntimeFunction
  /-- Its registers. -/
  ctx : UnwindContext
  /-- What the search makes of a frame. -/
  reader : FrameReader
  /-- What was thrown. -/
  payload : ThrowPayload
  /-- The first frame. -/
  frame : UnwindContext
  /-- Where a forced unwind goes. -/
  target : UnwindTarget
  /-- An LSDA. -/
  lsdaVa : ℕ
  /-- Bases of its encoded addresses. -/
  bases : LsdaBases
  /-- The program counter that is looked up. -/
  controlPc : ℕ
  /-- The type thrown, if it is known. -/
  thrownTypeinfo : Option ℕ
  /-- An action table. -/
  actionTable : ℕ
  /-- End of its type table. -/
  ttypeBase : ℕ
  /-- Encoding of that. -/
  ttypeEnc : ℕ
  /-- The first action. -/
  actionIndex : ℕ

/-- The values that are decoded: by `find_landing_pad_ex`, `find_cleanup_landing_pad` and
`match_action`. -/
def UnwindQuery.reads (q : UnwindQuery) (m : GuestBytes) : List LsdaRead :=
  findLandingPadReads m.read q.lsdaVa q.bases q.controlPc q.thrownTypeinfo ++
    (findCleanupReads m.read q.lsdaVa q.bases q.controlPc ++
      ActionEnv.matchReads ⟨m.read, q.bases, q.actionTable, q.ttypeBase, q.ttypeEnc,
        q.thrownTypeinfo⟩ q.actionIndex)

/-- **Unwinding ends**, and no shift amount reaches 64. -/
structure UnwindingEnds (m : GuestBytes) (q : UnwindQuery) : Prop where
  /-- `virtual_unwind` returns after finitely many calls. -/
  virtual : ∃ n r, UnwindReturns m.read q.imageBase q.entry q.ctx n r
  /-- `search_and_plan` unwinds at most so many frames. -/
  search : (q.reader.searchVisited q.payload FrameReader.MAX_FRAMES q.frame).length ≤
    FrameReader.MAX_FRAMES
  /-- And so does `forced_unwind_to`. -/
  forced : (unwindVisited q.reader q.target.ip q.target.frameRsp FrameReader.MAX_FRAMES
    q.frame).length ≤ FrameReader.MAX_FRAMES
  /-- The loop over a call-site table ends before its rounds do. -/
  sites : ∀ h, readHeader m.read q.bases q.lsdaVa = some h → ∀ pick k,
    siteLoop m.read (h.csEnc &&& 0x0f) (satAdd h.csStart h.csLen) pick
        (satAdd h.csStart h.csLen - h.csStart + k) h.csStart =
      siteLoop m.read (h.csEnc &&& 0x0f) (satAdd h.csStart h.csLen) pick
        (satAdd h.csStart h.csLen - h.csStart) h.csStart
  /-- Shift amounts are in range. -/
  shifts : ∀ r ∈ q.reads m, ∀ s ∈ r.shifts m.read, s < 64

/-- **Unwinding ends on every memory**; the shift amounts are in range unless a negative number of
eight bytes is decoded. -/
theorem unwindingEnds_iff (m : GuestBytes) (q : UnwindQuery) :
    UnwindingEnds m q ↔ ∀ r ∈ q.reads m, ¬r.WideNegative m.read := by
  refine Iff.trans ?_ (forall_shifts_lt_iff m.bytes (q.reads m))
  refine ⟨fun h => h.shifts, fun h => ?_⟩
  obtain ⟨n, r, hr, -⟩ := exists_unwindReturns m q.imageBase q.entry q.ctx
  exact
    { virtual := ⟨n, r, hr⟩
      search := length_searchVisited _ _
      forced := length_unwindVisited _ _
      sites := fun _ _ _ k => siteLoop_more Nat.and_le_right (satAdd_lt _ _) k le_rfl
      shifts := h }

/-- The start of an LSDA: the landing pad base is minus two in eight bytes. -/
def wideBytes : GuestBytes where
  bytes := ByteMap.write (fun _ => none) 0x1000 (0x0c :: DwFormat.sdata8.encode (-2))
  bound := by
    intro x hx
    exact ByteMap.write_of_notMem (.inr (hx.trans' (by decide)))

/-- **A landing pad base of minus two** shifts one by 64. -/
theorem not_unwindingEnds : ¬∀ (m : GuestBytes) (q : UnwindQuery), UnwindingEnds m q := by
  intro h
  let q : UnwindQuery :=
    { imageBase := 0, entry := ⟨0, 0, 0⟩, ctx := ⟨0, 0, fun _ => 0, fun _ => 0⟩
      reader := ⟨fun _ => none, fun _ _ _ _ => none, fun _ _ => none, fun _ _ _ => none,
        fun _ _ _ _ => [], fun _ _ _ => none⟩
      payload := ⟨0, 0, false⟩, frame := ⟨0, 0, fun _ => 0, fun _ => 0⟩, target := ⟨0, none, 0⟩
      lsdaVa := 0x1000, bases := ⟨0, 0⟩, controlPc := 0, thrownTypeinfo := none
      actionTable := 0, ttypeBase := 0, ttypeEnc := 0, actionIndex := 0 }
  have hbytes : wideBytes.bytes.Holds 0x1000 (0x0c :: DwFormat.sdata8.encode (-2)) :=
    ByteMap.holds_write _ _ _
  obtain ⟨hfirst, hvalue⟩ := ByteMap.holds_cons.mp hbytes
  have hlp : lpStartReads wideBytes.read 0x1000 = [.encoded 0x1001 0x0c] := by
    rw [lpStartReads, GuestBytes.read, readByte_of (by decide) hfirst]
    rfl
  have hmem : LsdaRead.encoded 0x1001 0x0c ∈ q.reads wideBytes := by
    refine List.mem_append_left _ (List.mem_append_left _ (List.mem_append_left _ ?_))
    rw [hlp]
    exact List.mem_singleton_self _
  exact (unwindingEnds_iff wideBytes q).mp (h wideBytes q) _ hmem
    ⟨rfl, _, hvalue.read rfl, by decide⟩

end Wie
