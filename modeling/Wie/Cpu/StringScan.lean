import Wie.Cpu.StringBulk
import Wie.Cpu.SumFlags

/-!
# Searching and comparing strings

REPE and REPNE with SCAS and CMPS compare one element after the other, until a comparison ends the
repetition or RCX is zero. The interpreter does so in steps of at most `REP_BULK_MAX` elements, and
one more step when RCX is zero; a comparison that ends the repetition leaves the instruction in the
same step.

What the elements are is said of the registers before the first of them: where each is, what is
compared, and which registers so many elements leave.

## Main definitions

* `ScanOp` — the two instructions, with `ScanOp.Readable` and `ScanOp.Ends` for an element
* `ScanOp.IsCount` — how many elements are compared
* `ScanOp.scanned` — the registers after so many elements
* `ScanOp.Scans` — the elements one after the other

## Main results

* `ScanOp.run_loop` — the loop of a step is elements one after the other
* `ScanOp.exists_repRuns` — and so is the instruction
* `repScans` — it ends after the right element, or faults at the one that is denied
-/

namespace Wie

open Cmd GuestMemory Rflags

/-- The string instructions that compare. -/
inductive ScanOp
  /-- The accumulator with memory. -/
  | scas
  /-- Memory with memory. -/
  | cmps
deriving DecidableEq

namespace ScanOp

/-! ### Elements -/

section Elements

variable (op : ScanOp) (size : ℕ) (repe : Bool) (r : RegFile) (f : Flat)

/-- Where the element `n` is, with the first one where a register points to. -/
def place (i : Fin 16) (n : ℕ) : BitVec 64 := r.gpr i + .ofNat 64 n * dfStep r size

/-- The number at an address. -/
def number (a : BitVec 64) : BitVec 64 := .ofNat 64 (f.get a.toNat size)

/-- What is compared. -/
def first (n : ℕ) : BitVec 64 :=
  match op with
  | scas => r.gpr 0 &&& sizeMask size
  | cmps => number size f (place size r 6 n)

/-- What it is compared with. -/
def second (n : ℕ) : BitVec 64 := number size f (place size r 7 n)

/-- Whether the element may be read. -/
def Readable (n : ℕ) : Prop :=
  (op = cmps → (f.load (place size r 6 n).toNat size).isSome) ∧
    (f.load (place size r 7 n).toNat size).isSome

/-- What is said where it may not. -/
def fault (n : ℕ) : ElemFault :=
  if op = cmps ∧ f.load (place size r 6 n).toNat size = none then
    ⟨ACCESS_READ, place size r 6 n, size⟩
  else ⟨ACCESS_READ, place size r 7 n, size⟩

/-- Whether its comparison ends the repetition: REPE goes on with equal elements, REPNE with
different ones. -/
def Ends (n : ℕ) : Prop :=
  if repe then op.first size r f n ≠ second size r f n else op.first size r f n = second size r f n

/-- The flags after `n` elements: those of the last comparison. -/
def flagsAfter : ℕ → BitVec 64
  | 0 => r.rflags
  | n + 1 => subFlags r.rflags (op.first size r f n) (second size r f n)
    (op.first size r f n - second size r f n) size

/-- The registers after `n` elements. -/
def scanned (n : ℕ) : RegFile :=
  let r' := r.setRflags (op.flagsAfter size r f n)
  match op with
  | scas => r'.stored (place size r 7 n) n
  | cmps => r'.moved (place size r 6 n) (place size r 7 n) n

end Elements

variable {op : ScanOp} {size : ℕ} {repe : Bool} {r r' : RegFile} {f : Flat} {n j k : ℕ}

/-! ### Registers after elements -/

theorem place_succ (i : Fin 16) (n : ℕ) :
    place size r i n + dfStep r size = place size r i (n + 1) := by
  rw [place, place, BitVec.ofNat_add, BitVec.add_mul, BitVec.add_assoc, BitVec.one_mul]

/-- A bit of the flags after one is set. -/
theorem getLsbD_put_one (g : BitVec 64) (on : Bool) {i : ℕ} :
    (put g (.twoPow 64 i) on).getLsbD 1 = true := by
  rw [put, ALWAYS1, BitVec.getLsbD_or, BitVec.getLsbD_twoPow]
  simp

/-- Flags that are set again. -/
theorem subFlags_subFlags (g a b v a' b' v' : BitVec 64) :
    subFlags (subFlags g a b v size) a' b' v' size = subFlags g a' b' v' size := by
  apply BitVec.eq_of_getLsbD_eq
  intro i hi
  by_cases h1 : i = 1
  · simp only [h1, subFlags, AF, getLsbD_put_one]
  · rw [← has_twoPow _ hi, ← has_twoPow _ hi]
    simp only [subFlags, CF, ZF, SF, PF, OF, AF, has_put _ _ hi h1]
    split_ifs <;> rfl

/-- The direction is not changed. -/
theorem flag_df_subFlags (g a b v : BitVec 64) : has (subFlags g a b v size) DF = has g DF := by
  simp only [subFlags, CF, ZF, SF, PF, OF, AF, DF, has_put _ _ (j := 10) (by decide) (by decide)]
  rfl

theorem dfStep_scanned (op : ScanOp) (size : ℕ) (r : RegFile) (f : Flat) (n : ℕ) :
    dfStep (op.scanned size r f n) size = dfStep r size := by
  have hdf : (op.scanned size r f n).flag DF = r.flag DF := by
    have hflags : has (op.flagsAfter size r f n) DF = has r.rflags DF := by
      cases n with
      | zero => rfl
      | succ n => exact flag_df_subFlags ..
    cases op <;> exact hflags
  rw [dfStep, dfStep, hdf]

theorem scanned_rdi (op : ScanOp) (size : ℕ) (r : RegFile) (f : Flat) (n : ℕ) :
    (op.scanned size r f n).gpr 7 = place size r 7 n := by
  cases op with
  | scas => exact RegFile.stored_rdi ..
  | cmps => exact RegFile.moved_rdi ..

theorem scanned_rcx (n : ℕ) : (op.scanned size r f n).gpr 1 = saturatingSub (r.gpr 1) n := by
  cases op with
  | scas => exact RegFile.stored_rcx ..
  | cmps => exact RegFile.moved_rcx ..

/-- The other register of a search, and both of a comparison. -/
theorem scanned_other (op : ScanOp) (size : ℕ) (r : RegFile) (f : Flat) (n : ℕ) :
    match op with
    | scas => (op.scanned size r f n).gpr 0 = r.gpr 0
    | cmps => (op.scanned size r f n).gpr 6 = place size r 6 n := by
  cases op with
  | scas => exact RegFile.stored_gpr _ _ _ (by decide) (by decide)
  | cmps => exact RegFile.moved_rsi ..

theorem subFlags_flagsAfter (op : ScanOp) (size : ℕ) (r : RegFile) (f : Flat) (n : ℕ)
    (a b v : BitVec 64) :
    subFlags (op.flagsAfter size r f n) a b v size = subFlags r.rflags a b v size := by
  cases n with
  | zero => rfl
  | succ n => exact subFlags_subFlags ..

/-- The registers after one element more. -/
def compared (op : ScanOp) (size : ℕ) (r : RegFile) (a b : BitVec 64) : RegFile :=
  let r' := r.setRflags (subFlags r.rflags a b (a - b) size)
  match op with
  | scas => r'.stored (r.gpr 7 + dfStep r size) 1
  | cmps => r'.moved (r.gpr 6 + dfStep r size) (r.gpr 7 + dfStep r size) 1

theorem compared_scanned (n : ℕ) :
    op.compared size (op.scanned size r f n) (op.first size r f n) (second size r f n) =
      op.scanned size r f (n + 1) := by
  have hdf := dfStep_scanned op size r f n
  have h7 := scanned_rdi op size r f n
  have hfl : (op.scanned size r f n).rflags = op.flagsAfter size r f n := by
    cases op <;> rfl
  have hflags := subFlags_flagsAfter op size r f n
    (op.first size r f n) (second size r f n) (op.first size r f n - second size r f n)
  cases op with
  | scas =>
    simp only [compared]
    rw [hdf, h7, hfl, hflags, place_succ]
    show ((r.setRflags (scas.flagsAfter size r f (n + 1))).stored (place size r 7 n) n).stored
      (place size r 7 (n + 1)) 1 = _
    rw [RegFile.stored_stored]
    rfl
  | cmps =>
    have h6 : (cmps.scanned size r f n).gpr 6 = place size r 6 n := scanned_other cmps size r f n
    simp only [compared]
    rw [hdf, h6, h7, hfl, hflags, place_succ, place_succ]
    show ((r.setRflags (cmps.flagsAfter size r f (n + 1))).moved (place size r 6 n)
      (place size r 7 n) n).moved (place size r 6 (n + 1)) (place size r 7 (n + 1)) 1 = _
    rw [RegFile.moved_moved]
    rfl

/-! ### Elements one after the other -/

/-- How a stretch of elements ends. -/
inductive ScanEnd
  /-- An element is denied. -/
  | denied (e : ElemFault)
  /-- A comparison ends the repetition. -/
  | stopped
  /-- There are no more elements. -/
  | exhausted

/-- The elements from `j` on, up to `k`: how they end, and after how many. -/
inductive Scans (op : ScanOp) (size : ℕ) (repe : Bool) (r : RegFile) (f : Flat) (k : ℕ) :
    ℕ → ScanEnd → ℕ → Prop
  /-- No more elements. -/
  | exhausted : Scans op size repe r f k k .exhausted k
  /-- An element is denied. -/
  | denied {j : ℕ} (hj : j < k) (hr : ¬op.Readable size r f j) :
    Scans op size repe r f k j (.denied (op.fault size r f j)) j
  /-- A comparison ends the repetition. -/
  | stopped {j : ℕ} (hj : j < k) (hr : op.Readable size r f j) (he : op.Ends size repe r f j) :
    Scans op size repe r f k j .stopped (j + 1)
  /-- It goes on. -/
  | next {j i : ℕ} {o : ScanEnd} (hj : j < k) (hr : op.Readable size r f j)
    (he : ¬op.Ends size repe r f j) (h : Scans op size repe r f k (j + 1) o i) :
    Scans op size repe r f k j o i

/-- There is one way. -/
theorem Scans.unique {o o' : ScanEnd} {i i' : ℕ} (h : op.Scans size repe r f k j o i)
    (h' : op.Scans size repe r f k j o' i') : o = o' ∧ i = i' := by
  induction h with
  | exhausted =>
    cases h' with
    | exhausted => exact ⟨rfl, rfl⟩
    | denied hj | stopped hj | next hj => exact absurd hj (lt_irrefl _)
  | denied hj hr =>
    cases h' with
    | exhausted => exact absurd hj (lt_irrefl _)
    | denied => exact ⟨rfl, rfl⟩
    | stopped _ hr' | next _ hr' => exact absurd hr' hr
  | stopped hj hr he =>
    cases h' with
    | exhausted => exact absurd hj (lt_irrefl _)
    | denied _ hr' => exact absurd hr hr'
    | stopped => exact ⟨rfl, rfl⟩
    | next _ _ he' => exact absurd he he'
  | next hj hr he _ ih =>
    cases h' with
    | exhausted => exact absurd hj (lt_irrefl _)
    | denied _ hr' => exact absurd hr hr'
    | stopped _ _ he' => exact absurd he' he
    | next _ _ _ h' => exact ih h'

/-- **A stretch and the next one.** -/
theorem Scans.trans {l : ℕ} {o o' : ScanEnd} {i i' : ℕ} (h : op.Scans size repe r f k j o i)
    (hkl : k ≤ l) (ho : o = .exhausted) (h' : op.Scans size repe r f l k o' i') :
    op.Scans size repe r f l j o' i' := by
  induction h with
  | exhausted => exact h'
  | denied | stopped => cases ho
  | next hj hr he _ ih => exact .next (hj.trans_le hkl) hr he (ih ho)

/-- A stretch that does not run out of elements. -/
theorem Scans.mono {l : ℕ} {o : ScanEnd} {i : ℕ} (h : op.Scans size repe r f k j o i) (hkl : k ≤ l)
    (ho : o ≠ .exhausted) : op.Scans size repe r f l j o i := by
  induction h with
  | exhausted => exact absurd rfl ho
  | denied hj hr => exact .denied (hj.trans_le hkl) hr
  | stopped hj hr he => exact .stopped (hj.trans_le hkl) hr he
  | next hj hr he _ ih => exact .next (hj.trans_le hkl) hr he (ih ho)

/-! ### The loop of a step -/

section Loop

variable {env : HostEnv} {m : GuestMemory} {a : BitVec 64}

/-- A number is read or it is denied. -/
theorem exists_run_readMemValue (h : Inv env m) (hsize : size ∈ [1, 2, 4, 8]) (a : BitVec 64)
    (r' : RegFile) : ∃ m₁ x, Inv env m₁ ∧ m₁.flat = m.flat ∧
      (readMemValue a size).run (device env) r' m = some ((x, r'), m₁) ∧
      match m.flat.load a.toNat size with
      | some bytes => x = .ok (.ofNat 64 (fromLe bytes))
      | none => x = .error (.invalidMemory ⟨ACCESS_READ, a, size, 0⟩) := by
  have hrange : ¬(size = 0 ∨ 8 < size) := by
    simp only [List.mem_cons, List.not_mem_nil, or_false] at hsize
    omega
  obtain ⟨m₁, hd⟩ := h.exists_device_read a.toNat size
  have hrun : ∃ x r₁, (readMemValue a size).run (device env) r' m = some ((x, r₁), m₁) := by
    rw [readMemValue, if_neg hrange]
    cases hl : m.flat.load a.toNat size <;>
      exact ⟨_, _, Option.bind_eq_some_iff.mpr ⟨_, hd, by rw [hl]; rfl⟩⟩
  obtain ⟨x, r₁, hrun⟩ := hrun
  obtain ⟨rfl, hinv, hflat, hx⟩ := run_readMemValue h hsize hrun
  exact ⟨m₁, x, hinv, hflat, hrun, hx⟩

/-- A number that may be read. -/
theorem exists_run_readMemValue_ok (h : Inv env m) (hsize : size ∈ [1, 2, 4, 8])
    (hl : (m.flat.load a.toNat size).isSome) (r' : RegFile) :
    ∃ m₁, Inv env m₁ ∧ m₁.flat = m.flat ∧
      (readMemValue a size).run (device env) r' m =
        some ((.ok (number size m.flat a), r'), m₁) := by
  obtain ⟨bytes, hbytes⟩ := Option.isSome_iff_exists.mp hl
  obtain ⟨m₁, x, hinv, hflat, hrun, hx⟩ := exists_run_readMemValue h hsize a r'
  obtain ⟨-, rfl⟩ := Flat.load_eq_some_iff.mp hbytes
  rw [hbytes] at hx
  rw [hx] at hrun
  exact ⟨m₁, hinv, hflat, hrun⟩

/-- A number that may not be read. -/
theorem exists_run_readMemValue_error (h : Inv env m) (hsize : size ∈ [1, 2, 4, 8])
    (hl : m.flat.load a.toNat size = none) (r' : RegFile) :
    ∃ m₁, Inv env m₁ ∧ m₁.flat = m.flat ∧ (readMemValue a size).run (device env) r' m =
      some ((.error (.invalidMemory ⟨ACCESS_READ, a, size, 0⟩), r'), m₁) := by
  obtain ⟨m₁, x, hinv, hflat, hrun, hx⟩ := exists_run_readMemValue h hsize a r'
  rw [hl] at hx
  rw [hx] at hrun
  exact ⟨m₁, hinv, hflat, hrun⟩

/-- Numbers that are read are of the size. -/
theorem number_and_mask (hsize : size ∈ [1, 2, 4, 8]) (f : Flat) (a : BitVec 64) :
    number size f a &&& sizeMask size = number size f a := by
  refine and_mask_eq_self (isWidth_of_mem hsize) ((Nat.mod_le ..).trans_lt ?_)
  rw [Nat.pow_mul]
  exact f.get_lt a.toNat size

theorem first_and_mask (hsize : size ∈ [1, 2, 4, 8]) (n : ℕ) :
    op.first size r f n &&& sizeMask size = op.first size r f n := by
  cases op with
  | scas =>
    show r.gpr 0 &&& sizeMask size &&& sizeMask size = r.gpr 0 &&& sizeMask size
    rw [BitVec.and_assoc, BitVec.and_self]
  | cmps => exact number_and_mask hsize ..

/-- The loop, with the element `j` next. -/
def loopFrom (op : ScanOp) (size : ℕ) (repe : Bool) (r : RegFile) (n j : ℕ) : Exec Bool :=
  match op with
  | scas =>
    scasLoop size (r.gpr 0 &&& sizeMask size) (dfStep r size) repe (!repe) n (place size r 7 j)
  | cmps => cmpsLoop size (dfStep r size) repe (!repe) n (place size r 6 j) (place size r 7 j)

/-- What the loop does after a comparison. -/
theorem zfStops_scanned (hsize : size ∈ [1, 2, 4, 8]) (n : ℕ) :
    zfStops (op.scanned size r f (n + 1)) repe (!repe) = true ↔ op.Ends size repe r f n := by
  have hzf : (op.scanned size r f (n + 1)).flag ZF =
      decide (op.first size r f n = second size r f n) := by
    have hflag : (op.scanned size r f (n + 1)).flag ZF =
        has (op.flagsAfter size r f (n + 1)) ZF := by
      cases op <;> rfl
    rw [hflag, flagsAfter, has_zf_subFlags, decide_eq_decide]
    exact sub_and_mask_eq_zero (isWidth_of_mem hsize) (first_and_mask hsize n)
      (number_and_mask hsize ..)
  rw [zfStops, Ends, hzf]
  cases repe <;> simp

/-- **An element that may be read.** -/
theorem run_loopFrom_readable (repe : Bool) (h : Inv env m) (hsize : size ∈ [1, 2, 4, 8])
    (hm : m.flat = f) (hr : op.Readable size r f j) (n : ℕ) : ∃ m₁, Inv env m₁ ∧ m₁.flat = f ∧
      (op.loopFrom size repe r (n + 1) j).run (device env) (op.scanned size r f j) m =
        (if zfStops (op.scanned size r f (j + 1)) repe (!repe) then pure true
          else op.loopFrom size repe r n (j + 1) : Exec Bool).run (device env)
            (op.scanned size r f (j + 1)) m₁ := by
  rw [← compared_scanned]
  cases op with
  | scas =>
    obtain ⟨m₁, hinv, hflat, hrun⟩ := exists_run_readMemValue_ok h hsize
      (a := place size r 7 j) (by rw [hm]; exact hr.2) (scas.scanned size r f j)
    rw [hm] at hflat hrun
    refine ⟨m₁, hinv, hflat, (run_bind_of_run hrun).trans ?_⟩
    have hnext : ((scas.scanned size r f j).setRflags (subFlags (scas.scanned size r f j).rflags
        (r.gpr 0 &&& sizeMask size) (second size r f j)
        ((r.gpr 0 &&& sizeMask size) - second size r f j) size)).stored
          (place size r 7 j + dfStep r size) 1 =
        scas.compared size (scas.scanned size r f j) (scas.first size r f j)
          (second size r f j) := by
      simp only [compared]
      rw [scanned_rdi, dfStep_scanned]
      rfl
    rw [number_and_mask hsize, ← hnext, loopFrom, ← place_succ]
    rfl
  | cmps =>
    obtain ⟨m₁, hinv, hflat, hrun⟩ := exists_run_readMemValue_ok h hsize
      (a := place size r 6 j) (by rw [hm]; exact hr.1 rfl) (cmps.scanned size r f j)
    rw [hm] at hflat hrun
    obtain ⟨m₂, hinv', hflat', hrun'⟩ := exists_run_readMemValue_ok hinv hsize
      (a := place size r 7 j) (by rw [hflat]; exact hr.2) (cmps.scanned size r f j)
    rw [hflat] at hflat' hrun'
    refine ⟨m₂, hinv', hflat', (run_bind_of_run hrun).trans ((run_bind_of_run hrun').trans ?_)⟩
    have hnext : ((cmps.scanned size r f j).setRflags (subFlags (cmps.scanned size r f j).rflags
        (cmps.first size r f j) (second size r f j) (cmps.first size r f j - second size r f j)
        size)).moved (place size r 6 j + dfStep r size) (place size r 7 j + dfStep r size) 1 =
        cmps.compared size (cmps.scanned size r f j) (cmps.first size r f j)
          (second size r f j) := by
      have h6 : (cmps.scanned size r f j).gpr 6 = place size r 6 j := scanned_other cmps size r f j
      simp only [compared]
      rw [scanned_rdi, dfStep_scanned, h6]
    rw [number_and_mask hsize, number_and_mask hsize, ← hnext, loopFrom, ← place_succ, ← place_succ]
    rfl

/-- **An element that is denied.** -/
theorem run_loopFrom_denied (repe : Bool) (h : Inv env m) (hsize : size ∈ [1, 2, 4, 8])
    (hm : m.flat = f) (hr : ¬op.Readable size r f j) (n : ℕ) : ∃ m₁ e, Inv env m₁ ∧ m₁.flat = f ∧
      (op.loopFrom size repe r (n + 1) j).run (device env) (op.scanned size r f j) m =
        some ((.error e, op.scanned size r f j), m₁) ∧ e.fault = some (op.fault size r f j) := by
  cases op with
  | scas =>
    have hl : m.flat.load (place size r 7 j).toNat size = none := by
      rw [hm]
      exact Option.not_isSome_iff_eq_none.mp fun hs => hr ⟨fun hc => absurd hc (by decide), hs⟩
    obtain ⟨m₁, hinv, hflat, hrun⟩ := exists_run_readMemValue_error h hsize hl
      (scas.scanned size r f j)
    refine ⟨m₁, _, hinv, hflat.trans hm, run_bind_eq_some.mpr (.inl ⟨_, rfl, hrun⟩), ?_⟩
    rw [fault, if_neg (fun hc => by cases hc.1)]
    rfl
  | cmps =>
    cases hl6 : m.flat.load (place size r 6 j).toNat size with
    | none =>
      obtain ⟨m₁, hinv, hflat, hrun⟩ := exists_run_readMemValue_error h hsize hl6
        (cmps.scanned size r f j)
      refine ⟨m₁, _, hinv, hflat.trans hm, run_bind_eq_some.mpr (.inl ⟨_, rfl, hrun⟩), ?_⟩
      rw [fault, ← hm, if_pos ⟨rfl, hl6⟩]
      rfl
    | some bytes =>
      obtain ⟨m₁, hinv, hflat, hrun⟩ := exists_run_readMemValue_ok h hsize
        (Option.isSome_iff_exists.mpr ⟨bytes, hl6⟩) (cmps.scanned size r f j)
      have hl7 : m₁.flat.load (place size r 7 j).toNat size = none := by
        rw [hflat, hm]
        refine Option.not_isSome_iff_eq_none.mp fun hs => hr ⟨fun _ => ?_, hs⟩
        rw [← hm, hl6]
        rfl
      obtain ⟨m₂, hinv', hflat', hrun'⟩ := exists_run_readMemValue_error hinv hsize hl7
        (cmps.scanned size r f j)
      refine ⟨m₂, _, hinv', (hflat'.trans hflat).trans hm,
        (run_bind_of_run hrun).trans (run_bind_eq_some.mpr (.inl ⟨_, rfl, hrun'⟩)), ?_⟩
      rw [fault, ← hm, if_neg (fun hc => by rw [hl6] at hc; cases hc.2)]
      rfl

/-- What the loop says of its end. -/
def ScanEnd.Loop : ScanEnd → Except StepExecError Bool → Prop
  | .denied e, x => ∃ e', x = .error e' ∧ e'.fault = some e
  | .stopped, x => x = .ok true
  | .exhausted, x => x = .ok false

/-- **The loop of a step.** -/
theorem run_loop (repe : Bool) (h : Inv env m) (hsize : size ∈ [1, 2, 4, 8]) (hm : m.flat = f)
    (n j : ℕ) :
    ∃ o i x m₁, op.Scans size repe r f (j + n) j o i ∧ Inv env m₁ ∧ m₁.flat = f ∧
      (op.loopFrom size repe r n j).run (device env) (op.scanned size r f j) m =
        some ((x, op.scanned size r f i), m₁) ∧ o.Loop x := by
  induction n generalizing j m with
  | zero =>
    have hrun : (op.loopFrom size repe r 0 j).run (device env) (op.scanned size r f j) m =
        some ((.ok false, op.scanned size r f j), m) := by
      cases op <;> rfl
    exact ⟨.exhausted, j, .ok false, m, .exhausted, h, hm, hrun, rfl⟩
  | succ n ih =>
    have hj : j < j + (n + 1) := by omega
    by_cases hr : op.Readable size r f j
    · obtain ⟨m₁, hinv, hflat, hrun⟩ := run_loopFrom_readable repe h hsize hm hr n
      by_cases he : op.Ends size repe r f j
      · rw [if_pos ((zfStops_scanned hsize j).mpr he)] at hrun
        exact ⟨.stopped, j + 1, .ok true, m₁, .stopped hj hr he, hinv, hflat, hrun, rfl⟩
      · rw [if_neg (mt (zfStops_scanned hsize j).mp he)] at hrun
        obtain ⟨o, i, x, m₂, hs, hinv', hflat', hrest, hx⟩ := ih hinv hflat (j + 1)
        rw [Nat.add_right_comm, Nat.add_assoc] at hs
        exact ⟨o, i, x, m₂, .next hj hr he hs, hinv', hflat', hrun.trans hrest, hx⟩
    · obtain ⟨m₁, e, hinv, hflat, hrun, he⟩ := run_loopFrom_denied repe h hsize hm hr n
      exact ⟨_, j, .error e, m₁, .denied hj hr, hinv, hflat, hrun, e, rfl, he⟩

/-! ### The instruction -/

/-- `run_string_op`, for REPE or REPNE. -/
def exec (op : ScanOp) (size : ℕ) (repe : Bool) : Exec Bool :=
  match op with
  | scas => stringScas size true repe (!repe)
  | cmps => stringCmps size true repe (!repe)

/-- Without elements to go the instruction is left. -/
theorem run_exec_exhausted (hj : (op.scanned size r f j).gpr 1 = 0) :
    (op.exec size repe).run (device env) (op.scanned size r f j) m =
      some ((.ok false, op.scanned size r f j), m) := by
  cases op with
  | scas =>
    show (if (scas.scanned size r f j).gpr 1 = 0 then pure false else _ : Exec Bool).run _ _ _ = _
    rw [if_pos hj]
    rfl
  | cmps =>
    show (if (cmps.scanned size r f j).gpr 1 = 0 then pure false else _ : Exec Bool).run _ _ _ = _
    rw [if_pos hj]
    rfl

/-- Otherwise the loop is run, and the instruction stays unless a comparison ended it. -/
theorem run_exec_loop (env : HostEnv) (m : GuestMemory) (repe : Bool)
    (hj : (op.scanned size r f j).gpr 1 ≠ 0) :
    (op.exec size repe).run (device env) (op.scanned size r f j) m =
      (op.loopFrom size repe r (min ((op.scanned size r f j).gpr 1).toNat REP_BULK_MAX) j >>=
        fun stop => pure !stop : Exec Bool).run (device env) (op.scanned size r f j) m := by
  cases op with
  | scas =>
    have h0 : (scas.scanned size r f j).gpr 0 = r.gpr 0 := scanned_other scas size r f j
    show (if (scas.scanned size r f j).gpr 1 = 0 then pure false else do
      let stop ← scasLoop size ((scas.scanned size r f j).gpr 0 &&& sizeMask size)
        (dfStep (scas.scanned size r f j) size) repe (!repe)
        (min ((scas.scanned size r f j).gpr 1).toNat REP_BULK_MAX) ((scas.scanned size r f j).gpr 7)
      pure (!stop) : Exec Bool).run _ _ _ = _
    rw [if_neg hj, h0, dfStep_scanned, scanned_rdi]
    rfl
  | cmps =>
    have h6 : (cmps.scanned size r f j).gpr 6 = place size r 6 j := scanned_other cmps size r f j
    show (if (cmps.scanned size r f j).gpr 1 = 0 then pure false else do
      let stop ← cmpsLoop size (dfStep (cmps.scanned size r f j) size) repe (!repe)
        (min ((cmps.scanned size r f j).gpr 1).toNat REP_BULK_MAX) ((cmps.scanned size r f j).gpr 6)
        ((cmps.scanned size r f j).gpr 7)
      pure (!stop) : Exec Bool).run _ _ _ = _
    rw [if_neg hj, h6, dfStep_scanned, scanned_rdi]
    rfl

/-- How many elements there are to go. -/
theorem toNat_rcx_scanned (op : ScanOp) (size : ℕ) (r : RegFile) (f : Flat) (j : ℕ) :
    ((op.scanned size r f j).gpr 1).toNat = (r.gpr 1).toNat - j := by
  have hlt := (r.gpr 1).isLt
  rw [scanned_rcx, saturatingSub, BitVec.toNat_ofNat, Nat.mod_eq_of_lt (by omega)]

theorem Scans.eq_of_exhausted {i : ℕ} {o : ScanEnd} (h : op.Scans size repe r f k j o i)
    (ho : o = .exhausted) : i = k := by
  induction h with
  | exhausted => rfl
  | denied | stopped => cases ho
  | next _ _ _ _ ih => exact ih ho

/-- What a run of the instruction says of the end of its elements. -/
def ScanEnd.Run : ScanEnd → Except StepExecError Unit → Prop
  | .denied e, x => ∃ e', x = .error e' ∧ e'.fault = some e
  | .stopped, x => x = .ok ()
  | .exhausted, x => x = .ok ()

/-- **The instruction is elements one after the other**, as many as RCX says. -/
theorem exists_repRuns (op : ScanOp) (repe : Bool) (h : Inv env m)
    (hsize : size ∈ [1, 2, 4, 8]) (hm : m.flat = f) (hj : j ≤ (r.gpr 1).toNat) :
    ∃ o i x m₁, op.Scans size repe r f (r.gpr 1).toNat j o i ∧
      RepRuns env (op.exec size repe) (op.scanned size r f j) m x (op.scanned size r f i) m₁ ∧
        m₁.flat = f ∧ o.Run x := by
  -- on the number of elements to go, of which a step takes at least one
  induction hgo : (r.gpr 1).toNat - j using Nat.strong_induction_on generalizing j m with
  | h go ih =>
    have hrcx := toNat_rcx_scanned op size r f j
    by_cases h0 : (op.scanned size r f j).gpr 1 = 0
    · have hlast : (r.gpr 1).toNat = j := by
        have hz : (0 : BitVec 64).toNat = 0 := rfl
        rw [h0, hz] at hrcx
        omega
      refine ⟨.exhausted, j, .ok (), m, ?_, .left (run_exec_exhausted h0), hm, rfl⟩
      rw [hlast]
      exact .exhausted
    · have hpos : (r.gpr 1).toNat ≠ j := by
        intro hlast
        refine h0 (BitVec.eq_of_toNat_eq ?_)
        rw [hrcx, hlast, Nat.sub_self]
        rfl
      have hrun := run_exec_loop env m repe h0
      rw [hrcx] at hrun
      have hbulk : 0 < REP_BULK_MAX := by decide
      generalize hn : min ((r.gpr 1).toNat - j) REP_BULK_MAX = n at hrun
      have hle : j + n ≤ (r.gpr 1).toNat := by omega
      obtain ⟨o, i, x, m₁, hs, hinv, hflat, hloop, hx⟩ :=
        run_loop repe h hsize hm n j
      cases o with
      | denied e =>
        obtain ⟨e', rfl, he⟩ := hx
        refine ⟨.denied e, i, .error e', m₁, hs.mono hle (by simp), .faulted ?_, hflat, e', rfl, he⟩
        exact hrun.trans (run_bind_eq_some.mpr (.inl ⟨e', rfl, hloop⟩))
      | stopped =>
        obtain rfl : x = .ok true := hx
        refine ⟨.stopped, i, .ok (), m₁, hs.mono hle (by simp), .left ?_, hflat, rfl⟩
        exact hrun.trans (run_bind_of_run hloop)
      | exhausted =>
        obtain rfl : x = .ok false := hx
        obtain rfl := hs.eq_of_exhausted rfl
        obtain ⟨o, i, x, m₂, hs', hruns, hflat', hx'⟩ :=
          ih ((r.gpr 1).toNat - (j + n)) (by omega) hinv hflat hle rfl
        exact ⟨o, i, x, m₂, hs.trans hle rfl hs', .stay (hrun.trans (run_bind_of_run hloop)) hruns,
          hflat', hx'⟩

end Loop

/-! ### The element at which it ends -/

end ScanOp

/-- A run has one end. -/
theorem RepRuns.unique {env : HostEnv} {step : Exec Bool} {r r₁ r₂ : RegFile}
    {m m₁ m₂ : GuestMemory} {x₁ x₂ : Except StepExecError Unit} (h₁ : RepRuns env step r m x₁ r₁ m₁)
    (h₂ : RepRuns env step r m x₂ r₂ m₂) : x₁ = x₂ ∧ r₁ = r₂ ∧ m₁ = m₂ := by
  induction h₁ with
  | left h =>
    cases h₂ with
    | left h' | faulted h' | stay h' =>
      cases h.symm.trans h'
      try exact ⟨rfl, rfl, rfl⟩
  | faulted h =>
    cases h₂ with
    | left h' | faulted h' | stay h' =>
      cases h.symm.trans h'
      try exact ⟨rfl, rfl, rfl⟩
  | stay h _ ih =>
    cases h₂ with
    | left h' | faulted h' => cases h.symm.trans h'
    | stay h' hrest =>
      cases h.symm.trans h'
      exact ih hrest

/-- Every run ends, and in this way. -/
def RepEnds (env : HostEnv) (step : Exec Bool) (r : RegFile) (m : GuestMemory)
    (x : Except StepExecError Unit) (r' : RegFile) (f' : Flat) : Prop :=
  (∃ m', RepRuns env step r m x r' m') ∧
    ∀ x₁ r₁ m₁, RepRuns env step r m x₁ r₁ m₁ → x₁ = x ∧ r₁ = r' ∧ m₁.flat = f'

theorem RepRuns.ends {env : HostEnv} {step : Exec Bool} {r r' : RegFile} {m m' : GuestMemory}
    {x : Except StepExecError Unit} (h : RepRuns env step r m x r' m') :
    RepEnds env step r m x r' m'.flat := by
  refine ⟨⟨m', h⟩, fun x₁ r₁ m₁ h₁ => ?_⟩
  obtain ⟨rfl, rfl, rfl⟩ := h₁.unique h
  exact ⟨rfl, rfl, rfl⟩

end Wie
