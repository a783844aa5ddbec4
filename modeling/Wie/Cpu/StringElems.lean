import Wie.Cpu.StringOps
import Wie.Lib.Copying
import Wie.Lib.Iterate

/-!
# String instructions, element by element

What REP STOS and REP MOVS are to do: one element after the other, on registers and a flat memory,
up to the first that is denied. No address wraps around, since the top of the address space is never
granted.

## Main definitions

* `RepOp.elem` — one element
* `Flat.Low` — memories that do not reach the top

## Main results

* `RepOp.stos_forward_iff`, `RepOp.movs_forward_iff` — elements upwards
* `RepOp.stos_backward`, `RepOp.movs_backward` — elements downwards
-/

namespace Wie

open Rflags

/-! ### Registers -/

namespace RegFile

variable (r : RegFile) (a b : BitVec 64) (n k : ℕ)

@[simp] theorem stored_rdi : (r.stored a n).gpr 7 = a := by
  rw [stored, setGpr_gpr_of_ne _ _ (by decide), setGpr_gpr_self]

@[simp] theorem stored_rcx : (r.stored a n).gpr 1 = saturatingSub (r.gpr 1) n := by
  rw [stored, setGpr_gpr_self]

theorem stored_gpr {i : Fin 16} (h7 : i ≠ 7) (h1 : i ≠ 1) : (r.stored a n).gpr i = r.gpr i := by
  rw [stored, setGpr_gpr_of_ne _ _ h1, setGpr_gpr_of_ne _ _ h7]

@[simp] theorem stored_flag (f : BitVec 64) : (r.stored a n).flag f = r.flag f := rfl

@[simp] theorem moved_rsi : (r.moved a b n).gpr 6 = a := by
  rw [moved, stored_gpr _ _ _ (by decide) (by decide), setGpr_gpr_self]

@[simp] theorem moved_rdi : (r.moved a b n).gpr 7 = b := stored_rdi ..

@[simp] theorem moved_rcx : (r.moved a b n).gpr 1 = saturatingSub (r.gpr 1) n := by
  rw [moved, stored_rcx, setGpr_gpr_of_ne _ _ (by decide)]

@[simp] theorem moved_flag (f : BitVec 64) : (r.moved a b n).flag f = r.flag f := rfl

theorem saturatingSub_add (v : BitVec 64) :
    saturatingSub (saturatingSub v n) k = saturatingSub v (n + k) := by
  rw [saturatingSub, saturatingSub, saturatingSub, BitVec.toNat_ofNat,
    Nat.mod_eq_of_lt (Nat.lt_of_le_of_lt (Nat.sub_le ..) v.isLt), Nat.sub_sub]

@[simp] theorem saturatingSub_zero (v : BitVec 64) : saturatingSub v 0 = v := by
  rw [saturatingSub, Nat.sub_zero, BitVec.ofNat_toNat, BitVec.setWidth_eq]

theorem stored_stored : (r.stored a n).stored b k = r.stored b (n + k) := by
  rw [stored, stored_rcx, saturatingSub_add, stored, setGpr_comm _ _ _ (by decide), setGpr_setGpr,
    setGpr_comm _ _ _ (by decide), setGpr_setGpr, stored, setGpr_comm _ _ _ (by decide)]

theorem stored_zero : r.stored (r.gpr 7) 0 = r := by
  rw [stored, saturatingSub_zero, setGpr, setGpr, Function.update_eq_self, Function.update_eq_self]

theorem setGpr_stored {i : Fin 16} (h7 : i ≠ 7) (h1 : i ≠ 1) :
    (r.stored a n).setGpr i b = (r.setGpr i b).stored a n := by
  rw [stored, setGpr_comm _ _ _ h1.symm, setGpr_comm _ _ _ h7.symm, stored,
    setGpr_gpr_of_ne _ _ h1.symm]

theorem moved_moved (a' b' : BitVec 64) :
    (r.moved a b n).moved a' b' k = r.moved a' b' (n + k) := by
  rw [moved, moved, setGpr_stored _ _ _ _ (by decide) (by decide), setGpr_setGpr, stored_stored,
    moved]

theorem moved_zero : r.moved (r.gpr 6) (r.gpr 7) 0 = r := by
  have h6 : r.setGpr 6 (r.gpr 6) = r := by rw [setGpr, Function.update_eq_self]
  rw [moved, h6, stored_zero]

end RegFile

/-! ### Memories that do not reach the top -/

namespace Flat

variable {f : Flat} {k : ℕ}

/-- The last byte of the address space may not be read. -/
def Low (f : Flat) : Prop := ∀ x, f.readable x = true → x + 1 < 2 ^ 64

/-- No address wraps around. -/
theorem Low.toNat_add {a : BitVec 64} (hl : f.Low) (h : f.Rd a.toNat k) :
    (a + .ofNat 64 k).toNat = a.toNat + k := by
  rw [BitVec.toNat_add, BitVec.toNat_ofNat, Nat.add_mod_mod]
  rcases Nat.eq_zero_or_pos k with rfl | hk
  · exact Nat.mod_eq_of_lt a.isLt
  · have := hl (a.toNat + k - 1) (h _ (by omega) (by omega))
    exact Nat.mod_eq_of_lt (by omega)

end Flat

/-! ### Elements -/

/-- STOS and MOVS. -/
inductive RepOp
  /-- Store the accumulator. -/
  | stos
  /-- Move memory. -/
  | movs
deriving DecidableEq

/-- What is said of a denied access. -/
structure ElemFault where
  /-- What was tried. -/
  accessType : ℕ
  /-- Where. -/
  address : BitVec 64
  /-- Bytes. -/
  size : ℕ

namespace RepOp

/-- One element. -/
def elem (op : RepOp) (size : ℕ) (s : RegFile × Flat) : Except ElemFault (RegFile × Flat) :=
  let r := s.1
  let step := dfStep r size
  match op with
  | stos =>
    match s.2.store (r.gpr 7).toNat (toLe size (r.gpr 0 &&& sizeMask size).toNat) with
    | some f => .ok (r.stored (r.gpr 7 + step) 1, f)
    | none => .error ⟨ACCESS_WRITE, r.gpr 7, size⟩
  | movs =>
    match s.2.load (r.gpr 6).toNat size with
    | none => .error ⟨ACCESS_READ, r.gpr 6, size⟩
    | some bytes =>
      match s.2.store (r.gpr 7).toNat bytes with
      | some f => .ok (r.moved (r.gpr 6 + step) (r.gpr 7 + step) 1, f)
      | none => .error ⟨ACCESS_WRITE, r.gpr 7, size⟩

variable {r : RegFile} {f f' : Flat} {s s' : RegFile × Flat} {size n : ℕ}

theorem elem_stos_ok_iff : elem stos size s = .ok s' ↔ s.2.Rw (s.1.gpr 7).toNat size ∧
    s' = (s.1.stored (s.1.gpr 7 + dfStep s.1 size) 1,
      s.2.put (s.1.gpr 7).toNat (toLe size (s.1.gpr 0 &&& sizeMask size).toNat)) := by
  simp only [elem]
  cases hs : s.2.store (s.1.gpr 7).toNat (toLe size (s.1.gpr 0 &&& sizeMask size).toNat) with
  | some f =>
    obtain ⟨hrw, rfl⟩ := (Flat.store_eq_some_iff (length_toLe ..)).mp hs
    simp only [Except.ok.injEq]
    exact ⟨fun h => ⟨hrw, h.symm⟩, fun h => h.2.symm⟩
  | none =>
    refine ⟨fun h => by simp at h, fun h => ?_⟩
    rw [(Flat.store_eq_some_iff (length_toLe ..)).mpr ⟨h.1, rfl⟩] at hs
    cases hs

theorem elem_movs_ok_iff : elem movs size s = .ok s' ↔
    s.2.Rd (s.1.gpr 6).toNat size ∧ s.2.Rw (s.1.gpr 7).toNat size ∧
    s' = (s.1.moved (s.1.gpr 6 + dfStep s.1 size) (s.1.gpr 7 + dfStep s.1 size) 1,
      s.2.put (s.1.gpr 7).toNat (s.2.bytes (s.1.gpr 6).toNat size)) := by
  simp only [elem]
  cases hl : s.2.load (s.1.gpr 6).toNat size with
  | none =>
    refine ⟨fun h => by simp at h, fun h => ?_⟩
    rw [Flat.load_eq_some_iff.mpr ⟨h.1, rfl⟩] at hl
    cases hl
  | some bytes =>
    obtain ⟨hrd, rfl⟩ := Flat.load_eq_some_iff.mp hl
    simp only
    cases hs : s.2.store (s.1.gpr 7).toNat (s.2.bytes (s.1.gpr 6).toNat size) with
    | some f =>
      obtain ⟨hrw, rfl⟩ := (Flat.store_eq_some_iff (Flat.length_bytes ..)).mp hs
      simp only [Except.ok.injEq]
      exact ⟨fun h => ⟨hrd, hrw, h.symm⟩, fun h => h.2.2.symm⟩
    | none =>
      refine ⟨fun h => by simp at h, fun h => ?_⟩
      rw [(Flat.store_eq_some_iff (Flat.length_bytes ..)).mpr ⟨h.2.1, rfl⟩] at hs
      cases hs

theorem dfStep_of_clear (h : r.flag DF = false) : dfStep r size = .ofNat 64 size := by
  rw [dfStep, h, if_neg Bool.false_ne_true]

theorem dfStep_of_set (h : r.flag DF = true) : dfStep r size = -.ofNat 64 size := by
  rw [dfStep, if_pos h]

@[simp] theorem fillPattern_zero (size : ℕ) (v : BitVec 64) : fillPattern 0 size v = [] := rfl

theorem fillPattern_succ (n size : ℕ) (v : BitVec 64) :
    fillPattern (n + 1) size v = fillPattern n size v ++ toLe size v.toNat := by
  rw [fillPattern, List.replicate_succ', List.flatten_append, List.flatten_singleton, fillPattern]

@[simp] theorem length_fillPattern (n size : ℕ) (v : BitVec 64) :
    (fillPattern n size v).length = n * size := by
  induction n with
  | zero => rw [fillPattern_zero, List.length_nil, Nat.zero_mul]
  | succ n ih => rw [fillPattern_succ, List.length_append, ih, length_toLe, Nat.succ_mul]

theorem add_succ_mul (a : BitVec 64) (n size : ℕ) :
    a + .ofNat 64 (n * size) + .ofNat 64 size = a + .ofNat 64 ((n + 1) * size) := by
  rw [Nat.succ_mul, BitVec.ofNat_add, BitVec.add_assoc]

/-! ### Upwards -/

/-- The state after `n` elements of STOS. -/
def stosUp (size n : ℕ) (s : RegFile × Flat) : RegFile × Flat :=
  (s.1.stored (s.1.gpr 7 + .ofNat 64 (n * size)) n,
    s.2.put (s.1.gpr 7).toNat (fillPattern n size (s.1.gpr 0 &&& sizeMask size)))

/-- The state after `n` elements of MOVS. -/
def movsUp (size n : ℕ) (s : RegFile × Flat) : RegFile × Flat :=
  (s.1.moved (s.1.gpr 6 + .ofNat 64 (n * size)) (s.1.gpr 7 + .ofNat 64 (n * size)) n,
    s.2.copyElems size (s.1.gpr 6).toNat (s.1.gpr 7).toNat n)

theorem elem_stosUp (hl : f.Low) (hdf : r.flag DF = false)
    (hrw : f.Rw (r.gpr 7).toNat (n * size)) : elem stos size (stosUp size n (r, f)) = .ok s' ↔
      f.Rw ((r.gpr 7).toNat + n * size) size ∧ s' = stosUp size (n + 1) (r, f) := by
  have hrax : (r.stored (r.gpr 7 + .ofNat 64 (n * size)) n).gpr 0 = r.gpr 0 :=
    RegFile.stored_gpr _ _ _ (by decide) (by decide)
  have hdf' : (r.stored (r.gpr 7 + .ofNat 64 (n * size)) n).flag DF = false := hdf
  rw [elem_stos_ok_iff, stosUp, RegFile.stored_rdi, hl.toNat_add hrw.rd, dfStep_of_clear hdf',
    RegFile.stored_stored, add_succ_mul, hrax, stosUp, fillPattern_succ, ← Flat.put_append,
    length_fillPattern]
  exact Iff.rfl

/-- **STOS upwards.** -/
theorem stos_forward_iff (hl : f.Low) (hdf : r.flag DF = false) :
    iterateOk (elem stos size) n (r, f) = (.ok (), s') ↔
      f.Rw (r.gpr 7).toNat (n * size) ∧ s' = stosUp size n (r, f) := by
  induction n generalizing s' with
  | zero =>
    have hnone : f.Rw (r.gpr 7).toNat (0 * size) := fun x h1 h2 => by omega
    have hstart : stosUp size 0 (r, f) = (r, f) := by
      rw [stosUp, Nat.zero_mul, BitVec.add_zero, RegFile.stored_zero, fillPattern_zero,
        Flat.put_nil]
    rw [iterateOk, hstart, Prod.mk.injEq, eq_comm (b := s')]
    exact ⟨fun h => ⟨hnone, h.2⟩, fun h => ⟨rfl, h.2⟩⟩
  | succ n ih =>
    rw [iterateOk_succ_iff, Nat.succ_mul, Flat.rw_append]
    constructor
    · rintro ⟨s₁, h, he⟩
      obtain ⟨hrw, rfl⟩ := ih.mp h
      obtain ⟨hrw', rfl⟩ := (elem_stosUp hl hdf hrw).mp he
      exact ⟨⟨hrw, hrw'⟩, rfl⟩
    · rintro ⟨⟨hrw, hrw'⟩, rfl⟩
      exact ⟨_, ih.mpr ⟨hrw, rfl⟩, (elem_stosUp hl hdf hrw).mpr ⟨hrw', rfl⟩⟩

theorem elem_movsUp (hl : f.Low) (hdf : r.flag DF = false)
    (hrd : f.Rd (r.gpr 6).toNat (n * size)) (hrw : f.Rw (r.gpr 7).toNat (n * size)) :
    elem movs size (movsUp size n (r, f)) = .ok s' ↔
      f.Rd ((r.gpr 6).toNat + n * size) size ∧ f.Rw ((r.gpr 7).toNat + n * size) size ∧
        s' = movsUp size (n + 1) (r, f) := by
  have hdf' : (r.moved (r.gpr 6 + .ofNat 64 (n * size)) (r.gpr 7 + .ofNat 64 (n * size)) n).flag
    DF = false := hdf
  rw [elem_movs_ok_iff, movsUp, RegFile.moved_rdi, RegFile.moved_rsi, hl.toNat_add hrw.rd,
    hl.toNat_add hrd, dfStep_of_clear hdf', RegFile.moved_moved, add_succ_mul, add_succ_mul, movsUp,
    Flat.copyElems, Flat.Rd, Flat.Rw, Flat.readable_copyElems, Flat.writable_copyElems]
  exact Iff.rfl

/-- **MOVS upwards.** -/
theorem movs_forward_iff (hl : f.Low) (hdf : r.flag DF = false) :
    iterateOk (elem movs size) n (r, f) = (.ok (), s') ↔ f.Rd (r.gpr 6).toNat (n * size) ∧
      f.Rw (r.gpr 7).toNat (n * size) ∧ s' = movsUp size n (r, f) := by
  induction n generalizing s' with
  | zero =>
    have hnone : f.Rd (r.gpr 6).toNat (0 * size) := fun x h1 h2 => by omega
    have hnone' : f.Rw (r.gpr 7).toNat (0 * size) := fun x h1 h2 => by omega
    have hstart : movsUp size 0 (r, f) = (r, f) := by
      rw [movsUp, Nat.zero_mul, BitVec.add_zero, BitVec.add_zero, RegFile.moved_zero,
        Flat.copyElems]
    rw [iterateOk, hstart, Prod.mk.injEq, eq_comm (b := s')]
    exact ⟨fun h => ⟨hnone, hnone', h.2⟩, fun h => ⟨rfl, h.2.2⟩⟩
  | succ n ih =>
    rw [iterateOk_succ_iff, Nat.succ_mul, Flat.rd_append, Flat.rw_append]
    constructor
    · rintro ⟨s₁, h, he⟩
      obtain ⟨hrd, hrw, rfl⟩ := ih.mp h
      obtain ⟨hrd', hrw', rfl⟩ := (elem_movsUp hl hdf hrd hrw).mp he
      exact ⟨⟨hrd, hrd'⟩, ⟨hrw, hrw'⟩, rfl⟩
    · rintro ⟨⟨hrd, hrd'⟩, ⟨hrw, hrw'⟩, rfl⟩
      exact ⟨_, ih.mpr ⟨hrd, hrw, rfl⟩, (elem_movsUp hl hdf hrd hrw).mpr ⟨hrd', hrw', rfl⟩⟩

/-! ### Downwards -/

/-- The state after `n` elements of STOS. -/
def stosDown (size n : ℕ) (s : RegFile × Flat) : RegFile × Flat :=
  (s.1.stored (s.1.gpr 7 - .ofNat 64 (n * size)) n, s.2.put ((s.1.gpr 7).toNat - (n - 1) * size)
    (fillPattern n size (s.1.gpr 0 &&& sizeMask size)))

/-- The state after `n` elements of MOVS, between ranges apart. -/
def movsDown (size n : ℕ) (s : RegFile × Flat) : RegFile × Flat :=
  (s.1.moved (s.1.gpr 6 - .ofNat 64 (n * size)) (s.1.gpr 7 - .ofNat 64 (n * size)) n,
    s.2.put ((s.1.gpr 7).toNat - (n - 1) * size)
      (s.2.bytes ((s.1.gpr 6).toNat - (n - 1) * size) (n * size)))

theorem fillPattern_succ' (n size : ℕ) (v : BitVec 64) :
    fillPattern (n + 1) size v = toLe size v.toNat ++ fillPattern n size v := by
  rw [fillPattern, List.replicate_succ, List.flatten_cons, fillPattern]

theorem sub_succ_mul (a : BitVec 64) (n size : ℕ) :
    a - .ofNat 64 (n * size) + -.ofNat 64 size = a - .ofNat 64 ((n + 1) * size) := by
  rw [Nat.succ_mul, BitVec.ofNat_add, ← BitVec.sub_eq_add_neg, BitVec.sub_sub]

theorem toNat_sub_ofNat {a : BitVec 64} (h : n ≤ a.toNat) :
    (a - .ofNat 64 n).toNat = a.toNat - n := by
  have ha := a.isLt
  have hn : (BitVec.ofNat 64 n).toNat = n := by
    rw [BitVec.toNat_ofNat, Nat.mod_eq_of_lt (by omega)]
  rw [BitVec.toNat_sub_of_le (by rw [BitVec.le_def, hn]; exact h), hn]

/-- **STOS downwards.** -/
theorem stos_backward (hdf : r.flag DF = true) (hle : n * size ≤ (r.gpr 7).toNat)
    (hrw : f.Rw ((r.gpr 7).toNat - n * size) ((n + 1) * size)) :
    iterateOk (elem stos size) (n + 1) (r, f) = (.ok (), stosDown size (n + 1) (r, f)) := by
  induction n with
  | zero =>
    rw [Nat.zero_mul, Nat.sub_zero, Nat.zero_add, Nat.one_mul] at hrw
    refine iterateOk_succ_iff.mpr ⟨_, rfl, elem_stos_ok_iff.mpr ⟨hrw, ?_⟩⟩
    rw [stosDown, dfStep_of_set hdf, fillPattern_succ', fillPattern_zero, List.append_nil,
      ← BitVec.sub_eq_add_neg, Nat.zero_add, Nat.sub_self, Nat.zero_mul, Nat.one_mul, Nat.sub_zero]
  | succ n ih =>
    have hn : (n + 1) * size = n * size + size := Nat.succ_mul ..
    have hn' : (n + 1 + 1) * size = (n + 1) * size + size := Nat.succ_mul ..
    have hrw' : f.Rw ((r.gpr 7).toNat - n * size) ((n + 1) * size) :=
      hrw.mono (by omega) (by omega)
    refine iterateOk_succ_iff.mpr ⟨_, ih (by omega) hrw', elem_stos_ok_iff.mpr ?_⟩
    have hrax : (stosDown size (n + 1) (r, f)).1.gpr 0 = r.gpr 0 :=
      RegFile.stored_gpr _ _ _ (by decide) (by decide)
    have hrdi : ((stosDown size (n + 1) (r, f)).1.gpr 7).toNat = (r.gpr 7).toNat - (n + 1) * size := by
      rw [stosDown, RegFile.stored_rdi, toNat_sub_ofNat (by omega)]
    have hdf' : (stosDown size (n + 1) (r, f)).1.flag DF = true := hdf
    rw [hrdi, hrax, dfStep_of_set hdf']
    refine ⟨hrw.mono le_rfl (by omega), ?_⟩
    have hput := f.put_prepend ((r.gpr 7).toNat - (n + 1) * size)
      (fillPattern (n + 1) size (r.gpr 0 &&& sizeMask size))
      (toLe size (r.gpr 0 &&& sizeMask size).toNat)
    rw [← fillPattern_succ', length_toLe] at hput
    have hbase : (r.gpr 7).toNat - (n + 1) * size + size = (r.gpr 7).toNat - n * size := by
      omega
    rw [hbase] at hput
    rw [stosDown, stosDown, RegFile.stored_rdi, sub_succ_mul, RegFile.stored_stored,
      Nat.add_sub_cancel, Nat.add_sub_cancel, hput]

/-- **MOVS downwards**, between ranges apart. -/
theorem movs_backward (hdf : r.flag DF = true) (hle : n * size ≤ (r.gpr 6).toNat)
    (hle' : n * size ≤ (r.gpr 7).toNat) (hrd : f.Rd ((r.gpr 6).toNat - n * size) ((n + 1) * size))
    (hrw : f.Rw ((r.gpr 7).toNat - n * size) ((n + 1) * size))
    (hapart : (r.gpr 6).toNat + size ≤ (r.gpr 7).toNat - n * size ∨
      (r.gpr 7).toNat + size ≤ (r.gpr 6).toNat - n * size) :
    iterateOk (elem movs size) (n + 1) (r, f) = (.ok (), movsDown size (n + 1) (r, f)) := by
  induction n with
  | zero =>
    rw [Nat.zero_mul, Nat.sub_zero, Nat.zero_add, Nat.one_mul] at hrw hrd
    refine iterateOk_succ_iff.mpr ⟨_, rfl, elem_movs_ok_iff.mpr ⟨hrd, hrw, ?_⟩⟩
    rw [movsDown, dfStep_of_set hdf, ← BitVec.sub_eq_add_neg, ← BitVec.sub_eq_add_neg, Nat.zero_add,
      Nat.sub_self, Nat.zero_mul, Nat.one_mul, Nat.sub_zero, Nat.sub_zero]
  | succ n ih =>
    have hn : (n + 1) * size = n * size + size := Nat.succ_mul ..
    have hn' : (n + 1 + 1) * size = (n + 1) * size + size := Nat.succ_mul ..
    have hrw' : f.Rw ((r.gpr 7).toNat - n * size) ((n + 1) * size) :=
      hrw.mono (by omega) (by omega)
    have hrd' : f.Rd ((r.gpr 6).toNat - n * size) ((n + 1) * size) := fun x h1 h2 =>
      hrd x (by omega) (by omega)
    refine iterateOk_succ_iff.mpr ⟨_, ih (by omega) (by omega) hrd' hrw' (by omega),
      elem_movs_ok_iff.mpr ?_⟩
    have hrsi : ((movsDown size (n + 1) (r, f)).1.gpr 6).toNat = (r.gpr 6).toNat - (n + 1) * size := by
      rw [movsDown, RegFile.moved_rsi, toNat_sub_ofNat (by omega)]
    have hrdi : ((movsDown size (n + 1) (r, f)).1.gpr 7).toNat = (r.gpr 7).toNat - (n + 1) * size := by
      rw [movsDown, RegFile.moved_rdi, toNat_sub_ofNat (by omega)]
    have hdf' : (movsDown size (n + 1) (r, f)).1.flag DF = true := hdf
    rw [hrdi, hrsi, dfStep_of_set hdf']
    refine ⟨fun x h1 h2 => hrd x h1 (by omega), hrw.mono le_rfl (by omega), ?_⟩
    -- the element that is read has not been written
    have hread : (movsDown size (n + 1) (r, f)).2.bytes ((r.gpr 6).toNat - (n + 1) * size) size =
        f.bytes ((r.gpr 6).toNat - (n + 1) * size) size := by
      refine Flat.bytes_congr fun x h1 h2 => Flat.byte_put_of_notMem ?_
      rw [Flat.length_bytes, Nat.add_sub_cancel]
      show x < (r.gpr 7).toNat - n * size ∨ (r.gpr 7).toNat - n * size + (n + 1) * size ≤ x
      omega
    have hsrc : (r.gpr 6).toNat - (n + 1) * size + size = (r.gpr 6).toNat - n * size := by
      omega
    have hdst : (r.gpr 7).toNat - (n + 1) * size + size = (r.gpr 7).toNat - n * size := by
      omega
    have hall := f.bytes_add ((r.gpr 6).toNat - (n + 1) * size) size ((n + 1) * size)
    have hput := f.put_prepend ((r.gpr 7).toNat - (n + 1) * size)
      (f.bytes ((r.gpr 6).toNat - n * size) ((n + 1) * size))
      (f.bytes ((r.gpr 6).toNat - (n + 1) * size) size)
    rw [hsrc] at hall
    rw [Flat.length_bytes, hdst, ← hall, Nat.add_comm size, ← Nat.succ_mul] at hput
    rw [hread, movsDown, movsDown, RegFile.moved_rdi, RegFile.moved_rsi, sub_succ_mul, sub_succ_mul,
      RegFile.moved_moved, Nat.add_sub_cancel, Nat.add_sub_cancel]
    exact congrArg (Prod.mk _) hput.symm

end RepOp

end Wie
