import Wie.Eh.PrologueRun

/-!
# Reading unwind data back

The header and the codes of an info that is laid out in memory are read as what they encode, and
`virtual_unwind` becomes a function of the prologue.

## Main results

* `virtualUnwind_root` — on an info without a chain
* `virtualUnwind_chain` — on an info with one: the next info is sought at the start of the function
-/

namespace Wie

/-! ### Bytes -/

/-- A memory of a 64-bit address space. -/
def ByteMap.Bounded (m : ByteMap) : Prop := ∀ x, 2 ^ 64 ≤ x → m x = none

variable {m : ByteMap}

theorem ByteMap.Bounded.lt (h : m.Bounded) {a : ℕ} {b : UInt8} (hb : m a = some b) :
    a < 2 ^ 64 := by
  by_contra hn
  rw [h a (by omega)] at hb
  cases hb

/-- A range that holds bytes is read where a saturating sum leads. -/
theorem ByteMap.Holds.read_satAdd (h : m.Bounded) {x y n : ℕ} {bs : List UInt8}
    (hb : m.Holds (x + y) bs) (hn : bs.length = n) : m.read (satAdd x y) n = some bs := by
  cases bs with
  | nil =>
    subst hn
    rfl
  | cons b bs =>
    have hlt : x + y < 2 ^ 64 := h.lt (hb 0 (Nat.zero_lt_succ _))
    rw [satAdd_of_lt hlt]
    exact hb.read hn

theorem slotsOf_slotBytes (ss : List Slot) : slotsOf (slotBytes ss) = ss := by
  induction ss with
  | nil => rfl
  | cons s ss ih => exact congrArg (s :: ·) ih

@[simp] theorem length_slotBytes (ss : List Slot) : (slotBytes ss).length = ss.length * 2 := by
  induction ss with
  | nil => rfl
  | cons s ss ih =>
    change (slotBytes ss).length + 2 = _
    rw [ih, List.length_cons]
    omega

namespace Prolog

variable {p : Prolog}

/-- The header of a prologue as the unwinder reads it. -/
def info (p : Prolog) (flags : ℕ) : UnwindInfo where
  version := p.version
  flags := flags
  sizeOfProlog := p.sizeOfProlog.toNat
  countOfCodes := p.codes.slots.length
  frameRegister := p.frameRegister
  frameOffset := p.frameOffset

/-- The header bytes. -/
def header (p : Prolog) (flags : ℕ) : List UInt8 :=
  [UInt8.ofNat (p.version + 8 * flags), p.sizeOfProlog, UInt8.ofNat p.codes.slots.length,
    UInt8.ofNat (p.frameRegister + 16 * p.frameOffset)]

theorem fromBytes_header {flags : ℕ} (hf : flags < 32) (hc : p.codes.slots.length < 256) :
    UnwindInfo.fromBytes (p.header flags) = some (p.info flags) := by
  have hv := p.version.isLt
  have hr := p.frameRegister.isLt
  have ho := p.frameOffset.isLt
  have h0 : (UInt8.ofNat (p.version + 8 * flags)).toNat = p.version + 8 * flags := by
    simp only [UInt8.toNat_ofNat']
    omega
  have h2 : (UInt8.ofNat p.codes.slots.length).toNat = p.codes.slots.length := by
    simp only [UInt8.toNat_ofNat']
    omega
  have h3 : (UInt8.ofNat (p.frameRegister + 16 * p.frameOffset)).toNat =
      p.frameRegister + 16 * p.frameOffset := by
    simp only [UInt8.toNat_ofNat']
    omega
  have hver : (p.version + 8 * flags) &&& 7 = (p.version : ℕ) := by
    rw [show 7 = 2 ^ 3 - 1 from rfl, Nat.and_two_pow_sub_one_eq_mod]
    omega
  have hflags : (p.version + 8 * flags) >>> 3 = flags := by
    rw [Nat.shiftRight_eq_div_pow]
    omega
  have hreg : (p.frameRegister + 16 * p.frameOffset : ℕ) &&& 0xf = p.frameRegister := by
    rw [show 0xf = 2 ^ 4 - 1 from rfl, Nat.and_two_pow_sub_one_eq_mod]
    omega
  have hoff : (p.frameRegister + 16 * p.frameOffset : ℕ) >>> 4 &&& 0xf = p.frameOffset := by
    rw [show 0xf = 2 ^ 4 - 1 from rfl, Nat.and_two_pow_sub_one_eq_mod, Nat.shiftRight_eq_div_pow]
    omega
  have hfin : Fin.ofNat 16 (p.frameRegister : ℕ) = p.frameRegister :=
    Fin.ext (Nat.mod_eq_of_lt hr)
  simp only [header, UnwindInfo.fromBytes, h0, h2, h3, hver, hflags, hreg, hoff, hfin, info]

theorem headerSize_info (p : Prolog) (flags : ℕ) : (p.info flags).headerSize = p.headerSize := rfl

/-- The base that `virtual_unwind` addresses saved registers from. -/
def codeBase (p : Prolog) (ctx : UnwindContext) : ℕ :=
  if p.frameRegister ≠ 0 then (ctx.gpr p.frameRegister).toNat - p.frameOffset * 16
  else entryRsp 0 p.codes.slots ctx.rsp.toNat

/-- What the second walk leaves of a context. -/
def undo (p : Prolog) (read : MemRead) (ctx : UnwindContext) : Option UnwindContext :=
  (p.codes.undo read (p.codeBase ctx) ⟨ctx.rsp.toNat, ctx.gpr, ctx.xmm⟩).bind (popReturn read)

end Prolog

/-! ### One info -/

variable {imageBase : ℕ} {entry : RuntimeFunction}

/-- `virtual_unwind` up to what follows the codes. -/
theorem virtualUnwind_own {p : Prolog} {flags : ℕ} (hb : m.Bounded) (hf : flags < 32)
    (hc : p.codes.slots.length < 256) (hne : entry.unwindData ≠ 0)
    (hat : m.Holds (imageBase + entry.unwindData) (p.bytes flags)) (fuel : ℕ)
    (ctx : UnwindContext) :
    virtualUnwind m.read imageBase (fuel + 1) entry ctx =
      (p.undo m.read ctx).bind fun ctx =>
        let dataOff := satAdd (imageBase + entry.unwindData) p.headerSize
        if flags &&& UnwindInfo.FLAG_CHAININFO ≠ 0 then do
          let chain ← m.read dataOff 4
          if fromLe chain ≠ 0 then
            virtualUnwind m.read imageBase fuel { entry with unwindData := fromLe chain } ctx
          else handlerResult m.read (p.info flags) dataOff ctx
        else handlerResult m.read (p.info flags) dataOff ctx := by
  have hat : m.Holds (imageBase + entry.unwindData) (p.header flags ++ slotBytes p.codes.slots) :=
    hat
  rw [ByteMap.holds_append] at hat
  obtain ⟨hh, hs⟩ := hat
  have hva : imageBase + entry.unwindData < 2 ^ 64 := hb.lt (hh 0 (by simp [Prolog.header]))
  have hread : m.read (imageBase + entry.unwindData) 4 = some (p.header flags) := hh.read rfl
  have hcodes : m.read (satAdd (imageBase + entry.unwindData) 4) ((p.info flags).countOfCodes * 2) =
      some (slotBytes p.codes.slots) := hs.read_satAdd hb (length_slotBytes _)
  have hbase : saveBase (p.info flags) p.codes.slots ctx = p.codeBase ctx := rfl
  rw [virtualUnwind, if_neg hne]
  simp only [satAdd_of_lt hva, hread, Option.bind_eq_bind, Option.bind_some,
    Prolog.fromBytes_header hf hc, hcodes, slotsOf_slotBytes, hbase, applyCodes_slots,
    Prolog.undo, Prolog.headerSize_info]
  rw [Option.bind_assoc]
  rfl

theorem Handler.flags_lt (h : Handler) : h.flags < 4 ∧ h.flags &&& 4 = 0 ∧ h.flags &&& 3 ≠ 0 := by
  obtain ⟨e, t, hk, rva, data⟩ := h
  cases e <;> cases t <;> simp [Handler.flags] at hk ⊢

/-- An info without a chain: the walk, the return address and the handler. -/
theorem virtualUnwind_root {u : UnwindData} (hb : m.Bounded) (hc : u.own.codes.slots.length < 256)
    (hp : u.parents = []) (hne : entry.unwindData ≠ 0) (hat : u.At m imageBase entry.unwindData)
    (fuel : ℕ) (ctx : UnwindContext) :
    ∃ r : UnwindContext → UnwindResult, (∀ c, (r c).ctx = c) ∧
      virtualUnwind m.read imageBase (fuel + 1) entry ctx = (u.own.undo m.read ctx).map r := by
  rw [UnwindData.At, hp, UnwindData.pieces] at hat
  have hown := hat _ (.head _)
  have htail := hat _ (.tail _ (.head _))
  cases hh : u.handler with
  | none =>
    rw [hh] at hown
    refine ⟨fun c => ⟨c, none, none, none⟩, fun c => rfl, ?_⟩
    rw [virtualUnwind_own hb (by decide) hc hne hown]
    cases u.own.undo m.read ctx with
    | none => rfl
    | some c => simp [handlerResult, Prolog.info]
  | some h =>
    rw [hh] at hown htail
    obtain ⟨h4, hchain, hhandler⟩ := h.flags_lt
    have hlen : h.bytes.length = 8 := by simp [Handler.bytes]
    have hread : m.read (satAdd (imageBase + entry.unwindData) u.own.headerSize) 8 =
        some h.bytes := by
      refine ByteMap.Holds.read_satAdd hb ?_ hlen
      simpa [Nat.add_assoc] using htail
    refine ⟨fun c => ⟨c, some (fromLe (h.bytes.take 4)), some (fromLe (h.bytes.drop 4)),
      some (satAdd (satAdd (imageBase + entry.unwindData) u.own.headerSize) 4)⟩, fun c => rfl, ?_⟩
    rw [virtualUnwind_own hb (by simp; omega) hc hne hown]
    cases u.own.undo m.read ctx with
    | none => rfl
    | some c =>
      have h1 : h.flags &&& UnwindInfo.FLAG_CHAININFO = 0 := hchain
      have h2 : h.flags &&& (UnwindInfo.FLAG_EHANDLER ||| UnwindInfo.FLAG_UHANDLER) ≠ 0 := hhandler
      simp only [Option.bind_some, Option.elim, h1, ne_eq, not_true_eq_false, if_false,
        Option.map_some, handlerResult, Prolog.info, h2, not_false_eq_true, if_true, hread]
      rfl

/-- An info with a chain: what follows the codes is a `RUNTIME_FUNCTION`, and its first field is
taken for the place of the next info. -/
theorem virtualUnwind_chain {u : UnwindData} {e : RuntimeFunction} {q : Prolog}
    {qs : List (RuntimeFunction × Prolog)} (hb : m.Bounded) (hc : u.own.codes.slots.length < 256)
    (hp : u.parents = (e, q) :: qs) (hbegin : 0 < e.beginAddress)
    (hlt : e.beginAddress < 2 ^ 32) (hne : entry.unwindData ≠ 0)
    (hat : u.At m imageBase entry.unwindData) (fuel : ℕ) (ctx : UnwindContext) :
    virtualUnwind m.read imageBase (fuel + 1) entry ctx =
      (u.own.undo m.read ctx).bind fun ctx =>
        virtualUnwind m.read imageBase fuel { entry with unwindData := e.beginAddress } ctx := by
  rw [UnwindData.At, hp, UnwindData.pieces] at hat
  have hown := hat _ (.head _)
  have htail := hat _ (.tail _ (.head _))
  have htail : m.Holds (imageBase + entry.unwindData + u.own.headerSize)
      (toLe 4 e.beginAddress) := by
    rw [RuntimeFunction.bytes, List.append_assoc, ByteMap.holds_append] at htail
    simpa [Nat.add_assoc] using htail.1
  have hread : m.read (satAdd (imageBase + entry.unwindData) u.own.headerSize) 4 =
      some (toLe 4 e.beginAddress) := htail.read_satAdd hb (length_toLe _ _)
  have hval : fromLe (toLe 4 e.beginAddress) = e.beginAddress := fromLe_toLe_of_lt hlt
  have hflag : UnwindInfo.FLAG_CHAININFO &&& UnwindInfo.FLAG_CHAININFO ≠ 0 := by decide
  rw [virtualUnwind_own hb (by decide) hc hne hown]
  simp only [hflag, ne_eq, not_false_eq_true, if_true, hread, Option.bind_eq_bind,
    Option.bind_some, hval, Nat.pos_iff_ne_zero.mp hbegin]

end Wie
