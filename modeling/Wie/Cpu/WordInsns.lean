import Wie.Cpu.Exchange
import Wie.Cpu.FlatExec
import Wie.Cpu.StringBulk

/-!
# Bit tests, conditional moves and exchanges

BT and its like, CMOVcc, XADD and CMPXCHG, as they are to be and as the interpreter executes them.
An operand is what it is when the instruction is executed, and memory is its flat view.

The interpreter takes the offset of a bit in memory as a number of 64 bits, whatever the operand
says; it does nothing for a CMOVcc whose condition does not hold; and XADD writes its first operand
before the second.

## Main definitions

* `WordInsn` — the instructions, with `WordInsn.after` for what they are to do
* `Bit`, `meantBit` — the bit that BT and its like are about
* `WordInsn.Right`, `WordInsn.Spared` — a right end, and when it is the end

## Main results

* `Bit.after_eq_iff` — changes of two bits of one string
* `wordInsns_right_iff` — when the instructions are right
-/

namespace Wie

open Cmd GuestMemory Rflags

/-! ### Bits -/

/-- A bit of an operand of some bytes. -/
structure Bit where
  /-- The operand. -/
  place : Operand
  /-- Its bytes. -/
  size : ℕ
  /-- The number of the bit. -/
  index : ℕ

namespace Bit

/-- The bit `n` of the bit string at an address, which goes on in both directions. -/
def string (base : BitVec 64) (n : ℤ) : Bit :=
  ⟨.memory (base + .ofInt 64 (n / 8)), 1, (n % 8).toNat⟩

variable (b : Bit)

/-- The bit. -/
def isSet (r : RegFile) (f : Flat) : Bool := (b.place.value b.size r f).getLsbD b.index

/-- BT and its like on the bit. -/
def after (op : BitOp) (r : RegFile) (f : Flat) : RegFile × Flat :=
  let s := (r.setFlag CF (b.isSet r f), f)
  if op = .bt then s
  else b.place.put b.size (op.apply (b.place.value b.size r f) (.twoPow 64 b.index)) s

/-- It may be tested, and changed if it is to be. -/
def Accessible (op : BitOp) (f : Flat) : Prop :=
  if op = .bt then b.place.Readable b.size f else b.place.Writable b.size f

end Bit

/-- What becomes of a bit. -/
def BitOp.on (op : BitOp) (bit : Bool) : Bool :=
  match op with
  | bt => bit
  | bts => true
  | btr => false
  | btc => !bit

/-- The offset that is meant in a bit string: a number with a sign, but for one that is in the
instruction. -/
def meantOffset (size : ℕ) (src : Operand) (off : BitVec 64) : ℤ :=
  match src with
  | .immediate _ => (off.toNat % (8 * size) : ℕ)
  | _ => signedOf (8 * size) off.toNat

/-- **The bit that is meant.** -/
def meantBit (size : ℕ) (dst src : Operand) (off : BitVec 64) : Bit :=
  match dst with
  | .memory a => .string a (meantOffset size src off)
  | _ => ⟨dst, size, off.toNat % (8 * size)⟩

/-! ### The instructions -/

/-- The instructions. -/
inductive WordInsn
  /-- BT and its like. -/
  | bit (op : BitOp)
  /-- CMOVcc, whose condition holds or not. -/
  | cmov (taken : Bool)
  /-- XADD. -/
  | xadd
  /-- CMPXCHG. -/
  | cmpxchg

namespace WordInsn

/-- What is executed. -/
def exec (i : Insn) : WordInsn → Exec Unit
  | bit op => execBit i op
  | cmov taken => execCmov i taken
  | xadd => execXadd i
  | cmpxchg => execCmpxchg i

/-- **What is to be done.** -/
def after (k : WordInsn) (size : ℕ) (dst src : Operand) (r : RegFile) (f : Flat) : RegFile × Flat :=
  let d := dst.value size r f
  let s := src.value size r f
  match k with
  | bit op => (meantBit size dst src s).after op r f
  | cmov taken => dst.put size (if taken then s else d) (r, f)
  | xadd =>
    let t := dst.put size (d + s &&& sizeMask size) (src.put size d (r, f))
    (t.1.setRflags (ArithOp.add.flags r.rflags d s size), t.2)
  | cmpxchg =>
    let acc := r.part (accumulator size)
    let r := r.setRflags (ArithOp.cmp.flags r.rflags acc d size)
    if acc = d then dst.put size s (r, f) else (r.putPart d (accumulator size), f)

/-- The forms that there are. -/
def Form (k : WordInsn) (dst src : Operand) : Prop :=
  match k, dst, src with
  | bit _, .immediate _, _ | bit _, _, .memory _ => False
  | bit _, _, _ => True
  | cmov _, .register _, .register _ | cmov _, .register _, .memory _ => True
  | cmov _, _, _ => False
  | xadd, .register _, .register _ | xadd, .memory _, .register _ => True
  | xadd, _, _ => False
  | cmpxchg, .register _, .register _ | cmpxchg, .memory _, .register _ => True
  | cmpxchg, _, _ => False

/-- No access is denied. -/
def Granted (k : WordInsn) (size : ℕ) (dst src : Operand) (r : RegFile) (f : Flat) : Prop :=
  match k with
  | bit op => (meantBit size dst src (src.value size r f)).Accessible op f
  | cmov _ => src.Readable size f
  | xadd | cmpxchg => dst.Writable size f

end WordInsn

namespace WordInsn

/-- **A right end**: of a run from `r` and `f` that says `x` and leaves `r'` and `f'`. -/
structure Right (k : WordInsn) (i : Insn) (size : ℕ) (dst src : Operand) (r : RegFile) (f : Flat)
    (x : Except StepExecError Unit) (r' : RegFile) (f' : Flat) : Prop where
  /-- It succeeds. -/
  ok : x = .ok ()
  /-- What is to be done is done. -/
  after : (r', f') = k.after size dst src r f
  /-- CMOVcc reads memory whether its condition holds or not. -/
  reads : ∀ taken a, k = cmov taken → src = .memory a → (k.exec i r).Loads a.toNat size

/-- The offset is the one that is meant when it is taken as a number of 64 bits. -/
def OffsetKept (size : ℕ) (src : Operand) (off : BitVec 64) : Prop :=
  match src with
  | .immediate _ => off.toNat < 8 * size
  | _ => size = 8 ∨ off.toNat < 2 ^ (8 * size - 1)

/-- **Where the interpreter is right.** -/
def Spared (k : WordInsn) (size : ℕ) (dst src : Operand) (r : RegFile) (f : Flat) : Prop :=
  match k, dst with
  | bit op, .memory a =>
    let off := src.value size r f
    let b := Bit.string a off.toInt
    -- the bit is the one that is meant, or both are the same and stay so
    OffsetKept size src off ∨ b.Accessible op f ∧
      b.isSet r f = (meantBit size dst src off).isSet r f ∧ op.on (b.isSet r f) = b.isSet r f
  | cmov taken, .register reg =>
    taken = true ∨ (∀ a, src ≠ .memory a) ∧ (size = 4 → (r.gpr reg.index).toNat < 2 ^ 32)
  | xadd, _ => dst = src → dst.value size r f = 0
  | _, _ => True

end WordInsn

/-! ### Bits of a bit string -/

namespace Bit

variable {a : BitVec 64} {n n' : ℤ} {op : BitOp} {r : RegFile} {f : Flat}

/-- Where the bit `n` is. -/
def byteAt (a : BitVec 64) (n : ℤ) : ℕ := (a + .ofInt 64 (n / 8)).toNat

theorem isSet_string (a : BitVec 64) (n : ℤ) (r : RegFile) (f : Flat) :
    (string a n).isSet r f = f.bit (byteAt a n) (n % 8).toNat := by
  have hlt : (n % 8).toNat < 64 := by omega
  show (BitVec.ofNat 64 (f.get (byteAt a n) 1)).getLsbD (n % 8).toNat = _
  rw [BitVec.getLsbD_ofNat, decide_eq_true hlt, Bool.true_and, Flat.get_one, Flat.bit]

theorem getLsbD_apply (op : BitOp) (v : BitVec 64) {l j : ℕ} (hl : l < 64) (hj : j < 64) :
    (op.apply v (.twoPow 64 l)).getLsbD j =
      if j = l then op.on (v.getLsbD l) else v.getLsbD j := by
  by_cases hjl : j = l
  · subst hjl
    cases op <;> simp [BitOp.apply, BitOp.on, hj]
  · cases op <;> simp [BitOp.apply, hj, hjl]

theorem after_string_fst :
    ((string a n).after op r f).1 = r.setFlag CF ((string a n).isSet r f) := by
  cases op <;> rfl

/-- **The bits after one is changed.** -/
theorem bit_after_string {x j : ℕ} (hj : j < 8) : ((string a n).after op r f).2.bit x j =
    if x = byteAt a n ∧ j = (n % 8).toNat then op.on (f.bit x j) else f.bit x j := by
  have hl : (n % 8).toNat < 64 := by omega
  by_cases hop : op = .bt
  · subst hop
    show f.bit x j = _
    rw [BitOp.on, ite_self]
  · have hafter : ((string a n).after op r f).2 = f.set (byteAt a n) 1
        (op.apply (.ofNat 64 (f.get (byteAt a n) 1)) (.twoPow 64 (n % 8).toNat)).toNat := by
      rw [after, if_neg hop]
      rfl
    have hbit (l : ℕ) (hl : l < 64) :
        (BitVec.ofNat 64 (f.get (byteAt a n) 1)).getLsbD l = f.bit (byteAt a n) l := by
      rw [BitVec.getLsbD_ofNat, decide_eq_true hl, Bool.true_and, Flat.get_one, Flat.bit]
    rw [hafter, Flat.bit_set_one _ _ _ hj]
    by_cases hx : x = byteAt a n
    · have happly := getLsbD_apply op (.ofNat 64 (f.get (byteAt a n) 1)) hl (hj.trans (by decide))
      rw [hbit _ hl, hbit _ (hj.trans (by decide))] at happly
      rw [if_pos hx, hx]
      refine happly.trans ?_
      by_cases hjl : j = (n % 8).toNat
      · rw [if_pos hjl, if_pos ⟨rfl, hjl⟩, hjl]
      · rw [if_neg hjl, if_neg fun hc => hjl hc.2]
    · rw [if_neg hx, if_neg fun hc => hx hc.1]

theorem readable_after : ((string a n).after op r f).2.readable = f.readable := by
  cases op <;> rfl

theorem writable_after : ((string a n).after op r f).2.writable = f.writable := by
  cases op <;> rfl

/-- A bit that stays as it is. -/
theorem after_string_snd (h : op.on ((string a n).isSet r f) = (string a n).isSet r f) :
    ((string a n).after op r f).2 = f := by
  refine Flat.ext_bit readable_after writable_after fun x j hj => ?_
  rw [bit_after_string hj]
  by_cases hx : x = byteAt a n ∧ j = (n % 8).toNat
  · rw [isSet_string] at h
    rw [if_pos hx, hx.1, hx.2, h]
  · rw [if_neg hx]

/-- Offsets of 64 bits are of different bits. -/
theorem place_injective (hn : -2 ^ 63 ≤ n) (hn' : n < 2 ^ 63) (hk : -2 ^ 63 ≤ n')
    (hk' : n' < 2 ^ 63) (hb : byteAt a n = byteAt a n') (hm : (n % 8).toNat = (n' % 8).toNat) :
    n = n' := by
  have heq : BitVec.ofInt 64 (n / 8) = .ofInt 64 (n' / 8) :=
    (BitVec.add_right_inj a).mp (BitVec.eq_of_toNat_eq hb)
  have := congrArg BitVec.toNat heq
  rw [BitVec.toNat_ofInt, BitVec.toNat_ofInt] at this
  omega

theorem flag_setFlag (r : RegFile) (on : Bool) : (r.setFlag CF on).flag CF = on := by
  show has (put r.rflags CF on) CF = on
  rw [CF, has_put _ _ (by decide) (by decide), if_pos rfl]

/-- **Changes of two bits of one string** are the same only if the bits are the same, or both are as
they would be after the change. -/
theorem after_eq_iff (hn : -2 ^ 63 ≤ n) (hn' : n < 2 ^ 63) (hk : -2 ^ 63 ≤ n') (hk' : n' < 2 ^ 63) :
    (string a n).after op r f = (string a n').after op r f ↔
      n = n' ∨ (string a n).isSet r f = (string a n').isSet r f ∧
        op.on ((string a n).isSet r f) = (string a n).isSet r f := by
  constructor
  · intro heq
    refine or_iff_not_imp_left.mpr fun hne => ?_
    have hset : (string a n).isSet r f = (string a n').isSet r f := by
      have := congrArg (fun s : RegFile × Flat => s.1.flag CF) heq
      simpa only [after_string_fst, flag_setFlag] using this
    refine ⟨hset, ?_⟩
    have hl : (n % 8).toNat < 8 := by omega
    have hbit := congrArg (fun s : RegFile × Flat => s.2.bit (byteAt a n) (n % 8).toNat) heq
    simp only [bit_after_string hl, and_self, if_true] at hbit
    rw [if_neg fun hc => hne (place_injective hn hn' hk hk' hc.1 hc.2)] at hbit
    rwa [isSet_string]
  · rintro (rfl | ⟨hset, hon⟩)
    · rfl
    · refine Prod.ext ?_ ?_
      · rw [after_string_fst, after_string_fst, hset]
      · rw [after_string_snd hon, after_string_snd (hset ▸ hon)]

end Bit

/-! ### How the instructions are executed -/

section Runs

variable {env : HostEnv} {i : Insn} {size : ℕ} {dst src : Wie.Operand} {reg : Register}
  {r : RegFile} {f : Flat} {a d : BitVec 64} {op : BitOp} {n x : ℕ}

/-- Operands but for numbers are of the width. -/
theorem Insn.HasOperand.value_lt (h : i.HasOperand n size r dst) (hv : ∀ v, dst ≠ .immediate v) :
    (dst.value size r f).toNat < 2 ^ (8 * size) := by
  cases dst with
  | register reg =>
    obtain ⟨-, -, -, rfl⟩ := h
    exact RegFile.toNat_part_lt r reg
  | memory a =>
    show (BitVec.ofNat 64 (f.get a.toNat size)).toNat < _
    rw [BitVec.toNat_ofNat, Nat.pow_mul]
    exact (Nat.mod_le ..).trans_lt (f.get_lt ..)
  | immediate v => exact absurd rfl (hv v)

theorem Insn.HasOperand.value_and_mask (h : i.HasOperand n size r dst) (hsize : IsWidth size)
    (hv : ∀ v, dst ≠ .immediate v) : dst.value size r f &&& sizeMask size = dst.value size r f :=
  and_mask_eq_self hsize (h.value_lt hv)

/-- A number with one bit. -/
theorem natCast_one_shiftLeft (k : ℕ) : ((1 <<< k : ℕ) : BitVec 64) = .twoPow 64 k := by
  apply BitVec.eq_of_toNat_eq
  rw [BitVec.toNat_twoPow, Nat.one_shiftLeft]
  rfl

/-- **A bit of a register.** -/
theorem gives_execBit_register (env : HostEnv) (op : BitOp) (hsize : IsWidth size)
    (hd : i.HasOperand 0 size r (.register reg))
    (hs : i.HasOperand 1 size r src) (hr : src.Readable size f) :
    let s := (meantBit size (.register reg) src (src.value size r f)).after op r f
    (execBit i op).Gives env r f (.ok ()) s.1 s.2 := by
  intro s
  have hmask := hd.value_and_mask (f := f) hsize fun _ => Operand.noConfusion
  obtain ⟨hkind, hreg, -, hbytes⟩ := id hd
  have hindex : (src.value size r f).toNat % 2 ^ 32 % (size * 8) =
      (src.value size r f).toNat % (8 * size) := by
    rw [Nat.mul_comm size]
    exact Nat.mod_mod_of_dvd _ (by rcases hsize with rfl | rfl | rfl | rfl <;> decide)
  have hlt : (src.value size r f).toNat % (8 * size) < 64 := by
    rcases hsize with rfl | rfl | rfl | rfl <;> omega
  have hkind0 : i.op0Kind = .register := hkind
  refine (hs.gives_readOp hsize hr).bind ?_
  rw [hkind0]
  refine (hd.gives_readOp hsize trivial).bind ((Exec.gives_alter _).bind ?_)
  rw [hreg, hbytes, hindex, hmask, natCast_one_shiftLeft, and_twoPow_ne_zero _ hlt]
  by_cases hop : op = .bt
  · rw [if_pos hop]
    have hs' : s = (r.setFlag CF _, f) := if_pos hop
    rw [hs']
    exact Exec.gives_pure _
  · rw [if_neg hop]
    have hs' : s = Operand.put _ _ _ _ := if_neg hop
    rw [hs']
    exact (hd.setRflags _).gives_writeOp hsize trivial _

/-- **A bit in memory.** -/
theorem gives_execBit_memory (env : HostEnv) (hsize : IsWidth size)
    (hd : i.HasOperand 0 size r (.memory a)) (hs : i.HasOperand 1 size r src)
    (hr : src.Readable size f)
    (hacc : (Bit.string a (src.value size r f).toInt).Accessible op f) :
    let s := (Bit.string a (src.value size r f).toInt).after op r f
    (execBit i op).Gives env r f (.ok ()) s.1 s.2 := by
  intro s
  obtain ⟨hkind, ha, -⟩ := id hd
  have hkind0 : i.op0Kind = .memory := hkind
  have hrd : f.Rd (Bit.byteAt a (src.value size r f).toInt) 1 := by
    by_cases hop : op = .bt
    · rwa [Bit.Accessible, if_pos hop] at hacc
    · rw [Bit.Accessible, if_neg hop] at hacc
      exact Flat.Rw.rd hacc
  have hlt : ((src.value size r f).toInt % 8).toNat < 64 := by omega
  refine (hs.gives_readOp hsize hr).bind ?_
  rw [hkind0]
  refine (Insn.gives_address ha).bind ((Exec.gives_load _ hrd).bind ((Exec.gives_alter _).bind ?_))
  rw [bitPlace]
  dsimp only
  rw [natCast_one_shiftLeft, and_twoPow_ne_zero _ hlt]
  by_cases hop : op = .bt
  · rw [if_pos hop]
    have hs' : s = (r.setFlag CF _, f) := if_pos hop
    rw [hs']
    exact Exec.gives_pure _
  · rw [if_neg hop]
    rw [Bit.Accessible, if_neg hop] at hacc
    have hs' : s = Operand.put _ _ _ _ := if_neg hop
    rw [hs']
    exact Exec.gives_writeMemValue (.inl rfl) _ hacc

/-- A bit in memory that is denied. -/
theorem exists_gives_execBit_error (env : HostEnv) (hsize : IsWidth size)
    (hd : i.HasOperand 0 size r (.memory a)) (hs : i.HasOperand 1 size r src)
    (hr : src.Readable size f)
    (hacc : ¬(Bit.string a (src.value size r f).toInt).Accessible op f) :
    ∃ e r', (execBit i op).Gives env r f (.error e) r' f := by
  obtain ⟨hkind, ha, -⟩ := id hd
  have hkind0 : i.op0Kind = .memory := hkind
  by_cases hrd : f.Rd (Bit.byteAt a (src.value size r f).toInt) 1
  · have hop : op ≠ .bt := by
      intro hop
      rw [Bit.Accessible, if_pos hop] at hacc
      exact hacc hrd
    rw [Bit.Accessible, if_neg hop] at hacc
    let v : BitVec 64 := .ofNat 64 (fromLe (f.bytes (Bit.byteAt a (src.value size r f).toInt) 1))
    let mask := (bitPlace a (src.value size r f)).2
    let r₁ := r.setFlag CF (v &&& mask ≠ 0)
    have herror : ∃ e, (writeMemValue (bitPlace a (src.value size r f)).1 (op.apply v mask) 1).Gives
        env r₁ f (.error e) r₁ f := Exec.exists_gives_writeMemValue_error (.inl rfl) _ hacc
    obtain ⟨e, he⟩ := herror
    refine ⟨e, r₁, (hs.gives_readOp hsize hr).bind ?_⟩
    rw [hkind0]
    refine (Insn.gives_address ha).bind ((Exec.gives_load _ hrd).bind ?_)
    refine (Exec.gives_alter _).bind ?_
    rw [if_neg hop]
    exact he
  · refine ⟨.invalidMemory ⟨ACCESS_READ, (bitPlace a (src.value size r f)).1, 1, 0⟩, r,
      (hs.gives_readOp hsize hr).bind ?_⟩
    rw [hkind0]
    exact (Insn.gives_address ha).bind (Exec.gives_load_error _ hrd).bind_error

/-- **CMOVcc**, which does nothing when its condition does not hold. -/
theorem gives_execCmov (env : HostEnv) (hsize : IsWidth size)
    (hd : i.HasOperand 0 size r (.register reg)) (hs : i.HasOperand 1 size r src)
    (hr : src.Readable size f) (taken : Bool) :
    (execCmov i taken).Gives env r f (.ok ())
      (if taken then r.putPart (src.value size r f) reg else r) f := by
  cases taken with
  | false => exact Exec.gives_pure _
  | true =>
    exact (hs.gives_readOp hsize hr).bind (hd.gives_writeOp (f := f) hsize trivial _)

/-- **The one step of XADD**, where it is offered. -/
theorem run_lockedXadd_flat {m m' : GuestMemory} {r' : RegFile} {s : BitVec 64}
    {v : Except StepExecError (Option (BitVec 64))} (hd : i.HasOperand 0 size r dst)
    (hw : dst.Writable size f) (hs : s.toNat < 2 ^ (8 * size)) (hinv : Inv env m)
    (hflat : m.flat = f) (hrun : (lockedXadd i size s).run (device env) r m = some ((v, r'), m')) :
    r' = r ∧ Inv env m' ∧ (v = .ok none ∧ m'.flat = f ∨
      ∃ a, dst = .memory a ∧ v = .ok (some (dst.value size r f)) ∧
        m'.flat = f.set a.toNat size (f.get a.toNat size + s.toNat)) := by
  rw [lockedXadd] at hrun
  by_cases hc : i.hasLockPrefix = true ∧ i.op0Kind = .memory
  · rw [if_pos hc] at hrun
    cases dst with
    | register reg =>
      have hkind : OpKind.memory = .register := hc.2.symm.trans hd.1
      cases hkind
    | immediate v => exact hw.elim
    | memory a =>
      obtain ⟨m₁, hinv₁, hflat₁, hrun⟩ := (Insn.gives_address hd.2.1).run_bind hinv hflat hrun
      rw [atomicFetchAdd] at hrun
      split_ifs at hrun with hal
      · rcases run_bind_eq_some.mp hrun with ⟨e, -, hrun₂⟩ | ⟨old, r₂, m₂, hrun₂, hrun₃⟩
        · obtain ⟨w, -, hw'⟩ := Option.bind_eq_some_iff.mp hrun₂
          cases hw'
        · cases hrun₃
          obtain ⟨w, hfetch, hw'⟩ := Option.bind_eq_some_iff.mp hrun₂
          cases hw'
          rcases hinv₁.device_fetchAdd hfetch with ⟨hnone, hsame⟩ | ⟨hsome, hwrote⟩
          · rw [hnone]
            exact ⟨rfl, hsame.inv hinv₁, .inl ⟨rfl, hsame.flat.trans hflat₁⟩⟩
          · rw [hsome, hflat₁]
            refine ⟨rfl, hwrote.inv hinv₁, .inr ⟨a, rfl, rfl, ?_⟩⟩
            have hstore := hwrote.store_flat
            rw [hflat₁, Nat.mod_eq_of_lt hs] at hstore
            exact (Flat.store_eq_some hstore).1
      · cases hrun
        exact ⟨rfl, hinv₁, .inl ⟨rfl, hflat₁⟩⟩
  · rw [if_neg hc] at hrun
    cases hrun
    exact ⟨rfl, hinv, .inl ⟨rfl, hflat⟩⟩

theorem Operand.Writable.readable (h : dst.Writable size f) : dst.Readable size f := by
  cases dst with
  | register reg => trivial
  | memory a => exact Flat.Rw.rd h
  | immediate v => trivial

theorem Operand.rflags_put (o : Operand) (v : BitVec 64) (s : RegFile × Flat) :
    (o.put size v s).1.rflags = s.1.rflags := by
  cases o <;> rfl

theorem addFlags_eq (g d s : BitVec 64) (size : ℕ) :
    addFlags g d s (d + s &&& sizeMask size) size = ArithOp.add.flags g d s size := by
  have hmask : (d + s &&& sizeMask size) &&& sizeMask size = d + s &&& sizeMask size := by
    rw [BitVec.and_assoc, BitVec.and_self]
  rw [addFlags, hmask]
  rfl

/-- A sum that is put into memory. -/
theorem set_sum (hsize : IsWidth size) (hd : d.toNat = f.get x size) (s : BitVec 64) :
    f.set x size (d + s &&& sizeMask size).toNat = f.set x size (f.get x size + s.toNat) := by
  have hsum : (d + s &&& sizeMask size).toNat = (f.get x size + s.toNat) % 256 ^ size := by
    rw [toNat_and_mask hsize, BitVec.toNat_add, Nat.mod_mod_of_dvd _ hsize.dvd, hd, Nat.pow_mul]
  rw [hsum, Flat.set, toLe_mod, Flat.set]

/-- **XADD** writes the second operand after the first. -/
theorem gives_execXadd (env : HostEnv) (hsize : IsWidth size) (hd : i.HasOperand 0 size r dst)
    (hs : i.HasOperand 1 size r (.register reg)) (hw : dst.Writable size f) :
    let d := dst.value size r f
    let s := r.part reg
    let t := dst.put size (d + s &&& sizeMask size) (r, f)
    (execXadd i).Gives env r f (.ok ())
      ((t.1.putPart d reg).setRflags (ArithOp.add.flags r.rflags d s size)) t.2 := by
  intro d s t m hinv hflat v r' m' hrun
  have hdm : d &&& sizeMask size = d := hd.value_and_mask hsize (by rintro v rfl; exact hw)
  have hsm : s &&& sizeMask size = s :=
    hs.value_and_mask (f := f) hsize fun _ => Operand.noConfusion
  have hslt : s.toNat < 2 ^ (8 * size) := hs.value_lt (f := f) fun _ => Operand.noConfusion
  have hfin (g : RegFile) (hg : g.rflags = r.rflags) :
      g.setRflags (addFlags g.rflags d s (d + s &&& sizeMask size) size) =
        g.setRflags (ArithOp.add.flags r.rflags d s size) := by
    rw [hg, addFlags_eq]
  rw [execXadd, hd.opSizeBytes hw] at hrun
  obtain ⟨m₁, hinv₁, hflat₁, hrun⟩ := (Exec.gives_lift size).run_bind hinv hflat hrun
  obtain ⟨m₂, hinv₂, hflat₂, hrun⟩ := (hs.gives_readOp hsize trivial).run_bind hinv₁ hflat₁ hrun
  have hvalue : (Operand.register reg).value size r f = s := rfl
  rw [hvalue, hsm] at hrun
  rcases run_bind_eq_some.mp hrun with ⟨e, -, hlock⟩ | ⟨old, r₂, m₃, hlock, hrun⟩
  · obtain ⟨-, -, ⟨⟨⟩, -⟩ | ⟨a, -, ⟨⟩, -⟩⟩ := run_lockedXadd_flat hd hw hslt hinv₂ hflat₂ hlock
  · obtain ⟨rfl, hinv₃, ⟨hold, hflat₃⟩ | ⟨a, rfl, hold, hflat₃⟩⟩ :=
      run_lockedXadd_flat hd hw hslt hinv₂ hflat₂ hlock
    · -- a load and a store
      cases hold
      have hplain : Exec.Gives env (do
          let dst ← i.readOp 0
          let dst := dst &&& sizeMask size
          let sum := dst + s &&& sizeMask size
          i.writeOp 0 sum
          i.writeOp 1 dst
          alter fun r => r.setRflags (addFlags r.rflags dst s sum size)) r₂ f (.ok ())
          ((t.1.putPart d reg).setRflags (ArithOp.add.flags r₂.rflags d s size)) t.2 := by
        refine (hd.gives_readOp hsize hw.readable).bind ?_
        rw [hdm]
        refine (hd.gives_writeOp hsize hw _).bind ?_
        have hs' : i.HasOperand 1 size t.1 (.register reg) := hs
        refine (hs'.gives_writeOp hsize trivial d).bind ?_
        rw [← hfin (t.1.putPart d reg) (dst.rflags_put _ (r₂, f))]
        exact Exec.gives_alter _
      exact hplain m₃ hinv₃ hflat₃ _ _ _ hrun
    · -- one step
      cases hold
      have hget : d.toNat = f.get a.toNat size := by
        have hlt := (f.get_lt a.toNat size).trans_le (Nat.pow_le_pow_right (by decide) hsize.le)
        exact (BitVec.toNat_ofNat ..).trans (Nat.mod_eq_of_lt hlt)
      have hstep : Exec.Gives env (do
          let old := d &&& sizeMask size
          let sum := old + s &&& sizeMask size
          i.writeOp 1 old
          alter fun r => r.setRflags (addFlags r.rflags old s sum size)) r₂
          (f.set a.toNat size (f.get a.toNat size + s.toNat)) (.ok ())
          ((t.1.putPart d reg).setRflags (ArithOp.add.flags r₂.rflags d s size)) t.2 := by
        have ht : t = (r₂, f.set a.toNat size (f.get a.toNat size + s.toNat)) :=
          congrArg (Prod.mk r₂) (set_sum hsize hget s)
        rw [ht, hdm]
        refine (hs.gives_writeOp hsize trivial d).bind ?_
        rw [← hfin (r₂.putPart d reg) rfl]
        exact Exec.gives_alter _
      exact hstep m₃ hinv₃ hflat₃ _ _ _ hrun

theorem isGpr_accumulator (hsize : IsWidth size) : (accumulator size).IsGpr := by
  rcases hsize with rfl | rfl | rfl | rfl <;> trivial

theorem size_accumulator (hsize : IsWidth size) : (accumulator size).size = size := by
  rcases hsize with rfl | rfl | rfl | rfl <;> rfl

/-- **CMPXCHG.** -/
theorem gives_execCmpxchg (env : HostEnv) (hsize : IsWidth size) (hd : i.HasOperand 0 size r dst)
    (hs : i.HasOperand 1 size r (.register reg)) (hw : dst.Writable size f) :
    let s := WordInsn.cmpxchg.after size dst (.register reg) r f
    (execCmpxchg i).Gives env r f (.ok ()) s.1 s.2 := by
  intro s
  have hdm := hd.value_and_mask (f := f) hsize (by rintro v rfl; exact hw)
  have hsm := hs.value_and_mask (f := f) hsize fun _ => Operand.noConfusion
  have ham : r.part (accumulator size) &&& sizeMask size = r.part (accumulator size) := by
    have hlt := RegFile.toNat_part_lt r (accumulator size)
    rw [size_accumulator hsize] at hlt
    exact and_mask_eq_self hsize hlt
  have hgpr := isGpr_accumulator hsize
  rw [execCmpxchg, hd.opSizeBytes hw]
  refine (Exec.gives_lift size).bind ((hd.gives_readOp hsize hw.readable).bind
    ((hs.gives_readOp hsize trivial).bind (Exec.gives_regs.bind ?_)))
  rw [RegFile.readReg_part hgpr]
  refine (Exec.gives_lift _).bind ((Exec.gives_alter _).bind (Exec.gives_regs.bind ?_))
  rw [hdm, hsm, ham]
  have hzf (g : BitVec 64) : (r.setRflags (subFlags g (r.part (accumulator size))
      (dst.value size r f) (r.part (accumulator size) - dst.value size r f) size)).flag ZF =
        decide (r.part (accumulator size) = dst.value size r f) := by
    refine (has_zf_subFlags ..).trans ?_
    rw [decide_eq_decide]
    exact sub_and_mask_eq_zero hsize ham hdm
  rw [hzf]
  by_cases heq : r.part (accumulator size) = dst.value size r f
  · rw [if_pos (decide_eq_true heq)]
    have hs' : s = Operand.put _ _ _ _ := if_pos heq
    rw [hs']
    exact (hd.setRflags _).gives_writeOp hsize hw _
  · rw [if_neg (by rwa [decide_eq_true_eq])]
    have hs' : s = (RegFile.putPart _ _ _, f) := if_neg heq
    rw [hs']
    exact Exec.gives_update (RegFile.writeReg_part hgpr)

end Runs

/-! ### When they are right -/

namespace WordInsn

variable {env : HostEnv} {k : WordInsn} {i : Insn} {size : ℕ} {dst src : Operand} {reg : Register}
  {r r₁ r' : RegFile} {f f₁ f' : Flat} {a off : BitVec 64} {op : BitOp} {m m' : GuestMemory}
  {x : Except StepExecError Unit}

/-- What the instruction comes to is compared with what is to be done. -/
theorem right_iff_of_gives (hg : (k.exec i).Gives env r f (.ok ()) r₁ f₁) (hinv : Inv env m)
    (hflat : m.flat = f) (hrun : (k.exec i).run (device env) r m = some ((x, r'), m'))
    (hreads : ∀ taken a, k = cmov taken → src = .memory a → (k.exec i r).Loads a.toNat size) :
    k.Right i size dst src r f x r' m'.flat ↔ (r₁, f₁) = k.after size dst src r f := by
  obtain ⟨rfl, rfl, -, rfl⟩ := hg m hinv hflat _ _ _ hrun
  exact ⟨fun h => h.after, fun h => ⟨rfl, h, hreads⟩⟩

theorem offsetKept_iff (hsize : IsWidth size) (hsrc : (∀ v, src ≠ .immediate v) →
    off.toNat < 2 ^ (8 * size)) :
    OffsetKept size src off ↔ off.toInt = meantOffset size src off := by
  have hoff := off.isLt
  have hlow (h : off.toNat < 2 ^ 63) : off.toInt = off.toNat := by
    rw [BitVec.toInt_eq_toNat_cond, if_pos (by omega)]
  have hhigh (h : 2 ^ 63 ≤ off.toNat) : off.toInt = off.toNat - 2 ^ 64 := by
    rw [BitVec.toInt_eq_toNat_cond, if_neg (by omega)]
    rfl
  cases src with
  | immediate v =>
    show off.toNat < 8 * size ↔ off.toInt = (off.toNat % (8 * size) : ℕ)
    have hlt : off.toNat % (8 * size) < 8 * size := Nat.mod_lt _ hsize.pos
    have hle : 8 * size ≤ 64 := Nat.mul_le_mul_left 8 hsize.le
    constructor
    · intro h
      rw [Nat.mod_eq_of_lt h]
      omega
    · intro h
      omega
  | register reg | memory a =>
    have hlt := hsrc fun _ => Operand.noConfusion
    show size = 8 ∨ off.toNat < 2 ^ (8 * size - 1) ↔ off.toInt = signedOf (8 * size) off.toNat
    rw [signedOf]
    by_cases hsign : off.toNat < 2 ^ (8 * size - 1)
    · rw [if_pos hsign]
      refine iff_of_true (.inr hsign) (hlow (hsign.trans_le ?_))
      exact Nat.pow_le_pow_right (by decide) (Nat.le_of_lt_succ hsize.lt_bits)
    · rw [if_neg hsign, or_iff_left hsign]
      rcases hsize with rfl | rfl | rfl | rfl
      · simp only [Nat.reduceMul, Nat.reduceSub] at *
        omega
      · simp only [Nat.reduceMul, Nat.reduceSub] at *
        omega
      · simp only [Nat.reduceMul, Nat.reduceSub] at *
        omega
      · exact iff_of_true rfl (hhigh (not_lt.mp hsign))

theorem meantOffset_bounds (hsize : IsWidth size) (hsrc : (∀ v, src ≠ .immediate v) →
    off.toNat < 2 ^ (8 * size)) :
    -2 ^ 63 ≤ meantOffset size src off ∧ meantOffset size src off < 2 ^ 63 := by
  cases src with
  | immediate v =>
    show -2 ^ 63 ≤ ((off.toNat % (8 * size) : ℕ) : ℤ) ∧ ((off.toNat % (8 * size) : ℕ) : ℤ) < 2 ^ 63
    have hlt : off.toNat % (8 * size) < 8 * size := Nat.mod_lt _ hsize.pos
    have hle : 8 * size ≤ 64 := Nat.mul_le_mul_left 8 hsize.le
    omega
  | register reg | memory a =>
    have hlt := hsrc fun _ => Operand.noConfusion
    show -2 ^ 63 ≤ signedOf (8 * size) off.toNat ∧ signedOf (8 * size) off.toNat < 2 ^ 63
    rw [signedOf]
    by_cases hsign : off.toNat < 2 ^ (8 * size - 1)
    · rw [if_pos hsign]
      rcases hsize with rfl | rfl | rfl | rfl <;> simp only [Nat.reduceMul, Nat.reduceSub] at * <;>
        omega
    · rw [if_neg hsign]
      rcases hsize with rfl | rfl | rfl | rfl <;> simp only [Nat.reduceMul, Nat.reduceSub] at * <;>
        omega

/-- **BT and its like in memory.** -/
theorem right_bit_memory_iff (hsize : IsWidth size) (hd : i.HasOperand 0 size r (.memory a))
    (hs : i.HasOperand 1 size r src) (hr : src.Readable size f)
    (hgranted : (bit op).Granted size (.memory a) src r f) (hinv : Inv env m) (hflat : m.flat = f)
    (hrun : ((bit op).exec i).run (device env) r m = some ((x, r'), m')) :
    (bit op).Right i size (.memory a) src r f x r' m'.flat ↔
      (bit op).Spared size (.memory a) src r f := by
  have hlt : (∀ v, src ≠ .immediate v) → (src.value size r f).toNat < 2 ^ (8 * size) :=
    hs.value_lt
  have hkept := offsetKept_iff hsize hlt
  obtain ⟨hb, hb'⟩ := meantOffset_bounds hsize hlt
  have hn := BitVec.le_toInt (src.value size r f)
  have hn' := BitVec.toInt_lt (x := src.value size r f)
  by_cases hacc : (Bit.string a (src.value size r f).toInt).Accessible op f
  · have hgives := gives_execBit_memory env hsize hd hs hr hacc
    refine (right_iff_of_gives hgives hinv hflat hrun fun _ _ hk => by cases hk).trans ?_
    refine (Bit.after_eq_iff hn hn' hb hb').trans ?_
    show _ ↔ OffsetKept size src (src.value size r f) ∨ _ ∧ _ ∧ _
    rw [hkept]
    exact or_congr_right (and_iff_right hacc).symm
  · refine iff_of_false ?_ ?_
    · intro h
      obtain ⟨e, r₁, hgives⟩ := exists_gives_execBit_error env hsize hd hs hr hacc
      have hx := (hgives m hinv hflat _ _ _ hrun).1
      rw [h.ok] at hx
      cases hx
    · rintro (hoff | ⟨hacc', -⟩)
      · refine hacc ?_
        rw [hkept.mp hoff]
        exact hgranted
      · exact hacc hacc'

/-- **CMOVcc.** -/
theorem right_cmov_iff (hsize : IsWidth size) (hd : i.HasOperand 0 size r (.register reg))
    (hs : i.HasOperand 1 size r src) (hr : src.Readable size f) (taken : Bool) (hinv : Inv env m)
    (hflat : m.flat = f) (hrun : ((cmov taken).exec i).run (device env) r m = some ((x, r'), m')) :
    (cmov taken).Right i size (.register reg) src r f x r' m'.flat ↔
      (cmov taken).Spared size (.register reg) src r f := by
  have hgives := gives_execCmov env hsize hd hs hr taken
  cases taken with
  | true =>
    refine iff_of_true ((right_iff_of_gives hgives hinv hflat hrun ?_).mpr rfl) (.inl rfl)
    rintro taken a hk rfl
    obtain ⟨hkind, ha, hbytes⟩ := hs
    show MemProg.Loads a.toNat size ((i.readOp 1 >>= fun src => i.writeOp 0 src : Exec Unit) r)
    rw [bind_apply, Insn.readOp_memory hkind ha hbytes hsize.mem]
    exact ⟨rfl, rfl⟩
  | false =>
    by_cases hmem : ∃ a, src = .memory a
    · obtain ⟨a, rfl⟩ := hmem
      refine iff_of_false (fun h => h.reads false a rfl rfl) ?_
      rintro (hc | ⟨hc, -⟩)
      · cases hc
      · exact hc a rfl
    · have hno : ∀ a, src ≠ .memory a := fun a ha => hmem ⟨a, ha⟩
      refine (right_iff_of_gives hgives hinv hflat hrun fun _ a _ ha => absurd ha (hno a)).trans ?_
      show (r, f) = (r.putPart (r.part reg) reg, f) ↔ _
      rw [Prod.mk.injEq, and_iff_left rfl, eq_comm, RegFile.putPart_part_iff hd.2.2.1,
        hd.2.2.2]
      exact ⟨fun h => .inr ⟨hno, h⟩, fun h => (h.resolve_left Bool.false_ne_true).2⟩

/-- **XADD.** -/
theorem right_xadd_iff (hsize : IsWidth size) (hd : i.HasOperand 0 size r dst)
    (hs : i.HasOperand 1 size r (.register reg)) (hw : dst.Writable size f) (hinv : Inv env m)
    (hflat : m.flat = f) (hrun : (xadd.exec i).run (device env) r m = some ((x, r'), m')) :
    xadd.Right i size dst (.register reg) r f x r' m'.flat ↔
      xadd.Spared size dst (.register reg) r f := by
  have hgives := gives_execXadd env hsize hd hs hw
  refine (right_iff_of_gives hgives hinv hflat hrun fun _ _ hk => by cases hk).trans ?_
  cases dst with
  | memory a => exact iff_of_true rfl fun h => by cases h
  | immediate v => exact hw.elim
  | register reg₀ =>
    obtain ⟨-, -, hgpr, hbytes⟩ := hd
    obtain ⟨-, -, hgpr', hbytes'⟩ := hs
    let d := r.part reg₀
    let sum := d + r.part reg &&& sizeMask size
    let flags := ArithOp.add.flags r.rflags d (r.part reg) size
    show (((r.putPart sum reg₀).putPart d reg).setRflags flags, f) =
      (((r.putPart d reg).putPart sum reg₀).setRflags flags, f) ↔
        (Operand.register reg₀ = .register reg → d = 0)
    by_cases hreg : reg₀ = reg
    · subst hreg
      have hd : d.toNat < 2 ^ (8 * size) := hbytes ▸ RegFile.toNat_part_lt r reg₀
      have hsum : sum.toNat = (d.toNat + d.toNat) % 2 ^ (8 * size) := by
        show (d + d &&& sizeMask size).toNat = _
        rw [toNat_and_mask hsize, BitVec.toNat_add, Nat.mod_mod_of_dvd _ hsize.dvd]
      have hzero : d = sum ↔ d = 0 := by
        rw [← BitVec.toNat_inj, ← BitVec.toNat_inj, hsum]
        show _ ↔ d.toNat = 0
        constructor
        · intro h
          rcases hsize with rfl | rfl | rfl | rfl <;> omega
        · intro h
          rw [h]
          rfl
      rw [RegFile.putPart_putPart, RegFile.putPart_putPart, imp_iff_right rfl, ← hzero]
      constructor
      · intro heq
        have hpart := congrArg (fun s : RegFile × Flat => s.1.part reg₀) heq
        simp only [RegFile.part_setRflags, RegFile.part_putPart hgpr, hbytes] at hpart
        rw [and_mask_eq_self hsize hd, BitVec.and_assoc, BitVec.and_self] at hpart
        exact hpart
      · intro heq
        rw [← heq]
    · refine iff_of_true ?_ fun h => absurd (Operand.register.inj h) hreg
      rw [RegFile.putPart_comm hreg (hbytes.trans hbytes'.symm) hgpr hgpr']

/-- **When the instructions are right.** A LOCK prefix does not matter. -/
theorem right_iff (hsize : IsWidth size) (hd : i.HasOperand 0 size r dst)
    (hs : i.HasOperand 1 size r src) (hform : k.Form dst src)
    (hgranted : k.Granted size dst src r f) (hinv : Inv env m) (hflat : m.flat = f)
    (hrun : (k.exec i).run (device env) r m = some ((x, r'), m')) :
    k.Right i size dst src r f x r' m'.flat ↔ k.Spared size dst src r f := by
  cases k with
  | bit op =>
    have hread : src.Readable size f := by
      cases src with
      | memory a => cases dst <;> exact hform.elim
      | register | immediate => trivial
    cases dst with
    | register reg =>
      have hgives := gives_execBit_register env op hsize hd hs hread
      exact iff_of_true ((right_iff_of_gives hgives hinv hflat hrun fun _ _ hk => by
        cases hk).mpr rfl) trivial
    | memory a => exact right_bit_memory_iff hsize hd hs hread hgranted hinv hflat hrun
    | immediate v => exact hform.elim
  | cmov taken =>
    cases dst with
    | register reg => exact right_cmov_iff hsize hd hs hgranted taken hinv hflat hrun
    | memory a => cases src <;> exact hform.elim
    | immediate v => cases src <;> exact hform.elim
  | xadd =>
    cases src with
    | register reg => exact right_xadd_iff hsize hd hs hgranted hinv hflat hrun
    | memory a => cases dst <;> exact hform.elim
    | immediate v => cases dst <;> exact hform.elim
  | cmpxchg =>
    cases src with
    | register reg =>
      have hgives := gives_execCmpxchg env hsize hd hs hgranted
      exact iff_of_true ((right_iff_of_gives hgives hinv hflat hrun fun _ _ hk => by
        cases hk).mpr rfl) trivial
    | memory a => cases dst <;> exact hform.elim
    | immediate v => cases dst <;> exact hform.elim

end WordInsn

/-- **Bit tests, conditional moves and exchanges.** On operands to which no access is denied, the
instruction is right, with a LOCK prefix or without, exactly where it is spared. -/
theorem wordInsns_right_iff {env : HostEnv} {m m' : GuestMemory} (h : Reachable env AnyCall m)
    (k : WordInsn) (i : Insn) (lock : Bool) {size : ℕ} (hsize : IsWidth size) {dst src : Operand}
    {r r' : RegFile} (hd : i.HasOperand 0 size r dst) (hs : i.HasOperand 1 size r src)
    (hform : k.Form dst src) (hgranted : k.Granted size dst src r m.flat)
    {x : Except StepExecError Unit}
    (hrun : (k.exec { i with hasLockPrefix := lock }).run (device env) r m = some ((x, r'), m')) :
    k.Right { i with hasLockPrefix := lock } size dst src r m.flat x r' m'.flat ↔
      k.Spared size dst src r m.flat :=
  have hd' : Insn.HasOperand { i with hasLockPrefix := lock } 0 size r dst := by
    cases dst <;> exact hd
  have hs' : Insn.HasOperand { i with hasLockPrefix := lock } 1 size r src := by
    cases src <;> exact hs
  WordInsn.right_iff hsize hd' hs' hform hgranted (Reachable.inv h) rfl hrun

/-- XADD of EAX and ECX. -/
theorem wordInsns_right_xadd : ∃ r', WordInsn.xadd.Right
    { onRegisters (.gpr32 0) (.gpr32 1) with hasLockPrefix := false } 4 (.register (.gpr32 0))
    (.register (.gpr32 1)) (withRax 5 0) somePages.flat (.ok ()) r' somePages.flat := by
  have hd : (onRegisters (.gpr32 0) (.gpr32 1)).HasOperand 0 4 (withRax 5 0)
      (.register (.gpr32 0)) := ⟨rfl, rfl, trivial, rfl⟩
  have hs : (onRegisters (.gpr32 0) (.gpr32 1)).HasOperand 1 4 (withRax 5 0)
      (.register (.gpr32 1)) := ⟨rfl, rfl, trivial, rfl⟩
  refine ⟨_, (wordInsns_right_iff reachable_somePages .xadd _ false (.inr (.inr (.inl rfl))) hd hs
    trivial trivial rfl).mpr fun h => ?_⟩
  cases h

/-- **`cmove eax, ecx`** leaves the upper half of RAX when its condition does not hold. -/
theorem not_wordInsns_right : ¬∀ (env : HostEnv) (m m' : GuestMemory), Reachable env AnyCall m →
    ∀ (k : WordInsn) (i : Insn) (size : ℕ), IsWidth size → ∀ (dst src : Operand) (r r' : RegFile),
      i.HasOperand 0 size r dst → i.HasOperand 1 size r src → k.Form dst src →
        k.Granted size dst src r m.flat → ∀ x : Except StepExecError Unit,
          (k.exec i).run (device env) r m = some ((x, r'), m') →
            k.Right i size dst src r m.flat x r' m'.flat := by
  intro hall
  have h := (hall .fourK somePages somePages reachable_somePages (.cmov false)
    (onRegisters (.gpr32 0) (.gpr32 1)) 4 (.inr (.inr (.inl rfl))) (.register (.gpr32 0))
    (.register (.gpr32 1)) (withRax (.allOnes 64) 0) (withRax (.allOnes 64) 0)
    ⟨rfl, rfl, trivial, rfl⟩ ⟨rfl, rfl, trivial, rfl⟩ trivial trivial (.ok ()) rfl).after
  have hrax := congrArg (fun s : RegFile × Flat => s.1.gpr 0) h
  revert hrax
  decide +kernel

end Wie
