import Wie.Cpu.FlatRun
import Wie.Cpu.StringElems

/-!
# Repeated string instructions are elements

The ways of REP STOS and REP MOVS, as the interpreter executes them, against the elements they stand
for. Elements one by one and spans are those elements. Chunks are too, as long as none is denied:
where one is, the element that is tried in its place is the first of the chunk, and not the first
that is denied.

## Main definitions

* `RepOp.exec` — one step of the instruction
* `RepOp.chunkLoop` — chunk by chunk, for both instructions

## Main results

* `run_stosLoop`, `run_movsLoop` — one element after the other
* `run_chunkLoop` — chunk by chunk
-/

namespace Wie

open Cmd GuestMemory Rflags

variable {env : HostEnv} {m m' : GuestMemory} {r r' : RegFile} {size n : ℕ}

/-- What a failure says of the denied access. -/
def StepExecError.fault : StepExecError → Option ElemFault
  | .invalidMemory inv => some ⟨inv.accessType, inv.address, inv.size⟩
  | .cpu _ => none

theorem GuestMemory.Inv.low (h : Inv env m) : m.flat.Low := fun _ hx => h.lt_top hx

/-! ### One element after the other -/

/-- A run ends as `n` elements do. -/
def ElemRun (op : RepOp) (size n : ℕ) (r : RegFile) (m : GuestMemory) (x : Except StepExecError Unit)
    (r' : RegFile) (m' : GuestMemory) : Prop :=
  ∃ y, iterateOk (op.elem size) n (r, m.flat) = (y, (r', m'.flat)) ∧
    x.mapError StepExecError.fault = y.mapError some

theorem ElemRun.of_error {op : RepOp} {e : ElemFault} {x : Except StepExecError Unit}
    (he : op.elem size (r, m.flat) = .error e) (hm : m'.flat = m.flat)
    (hx : x.mapError StepExecError.fault = .error (some e)) :
    ElemRun op size (n + 1) r m x r m' := by
  have hfail : FailsAt (op.elem size) (r, m.flat) 0 e (r, m.flat) := ⟨rfl, he⟩
  refine ⟨.error e, ?_, hx⟩
  rw [hm]
  exact hfail.of_lt (Nat.succ_pos n)

theorem ElemRun.of_ok {op : RepOp} {r₁ : RegFile} {m₁ : GuestMemory} {x : Except StepExecError Unit}
    (he : op.elem size (r, m.flat) = .ok (r₁, m₁.flat)) (h : ElemRun op size n r₁ m₁ x r' m') :
    ElemRun op size (n + 1) r m x r' m' := by
  obtain ⟨y, hy, hx⟩ := h
  refine ⟨y, ?_, hx⟩
  rw [iterateOk_cons he]
  exact hy

/-- **One element of STOS.** -/
theorem run_stosOne {r₁ : RegFile} {m₁ : GuestMemory} {x : Except StepExecError Unit}
    (h : Inv env m) (hn : size ∈ [1, 2, 4, 8])
    (hr : (writeMemValue (r.gpr 7) (r.gpr 0 &&& sizeMask size) size).run (device env) r' m =
      some ((x, r₁), m₁)) :
    r₁ = r' ∧ Inv env m₁ ∧
      match RepOp.stos.elem size (r, m.flat) with
      | .ok s => x = .ok () ∧ s = (r.stored (r.gpr 7 + dfStep r size) 1, m₁.flat)
      | .error e => x.mapError StepExecError.fault = .error (some e) ∧ m₁.flat = m.flat := by
  obtain ⟨rfl, hinv, hrest⟩ := run_writeMemValue_flat h hn hr
  refine ⟨rfl, hinv, ?_⟩
  cases hs : m.flat.store (r.gpr 7).toNat (toLe size (r.gpr 0 &&& sizeMask size).toNat) with
  | some f =>
    simp only [hs] at hrest
    simp only [RepOp.elem, hs, hrest.1, hrest.2, and_self]
  | none =>
    simp only [hs] at hrest
    simp only [RepOp.elem, hs, hrest.1, hrest.2, and_true]
    rfl

/-- **One element of MOVS.** -/
theorem run_moveOne {r₁ : RegFile} {m₁ : GuestMemory} {x : Except StepExecError Unit}
    (h : Inv env m) (hn : size ∈ [1, 2, 4, 8])
    (hr : (moveOne size (r.gpr 6) (r.gpr 7)).run (device env) r' m = some ((x, r₁), m₁)) :
    r₁ = r' ∧ Inv env m₁ ∧
      match RepOp.movs.elem size (r, m.flat) with
      | .ok s => x = .ok () ∧
        s = (r.moved (r.gpr 6 + dfStep r size) (r.gpr 7 + dfStep r size) 1, m₁.flat)
      | .error e => x.mapError StepExecError.fault = .error (some e) ∧ m₁.flat = m.flat := by
  rcases run_bind_eq_some.mp hr with ⟨e, rfl, hl⟩ | ⟨v, r₂, m₂, hl, hs⟩
  · obtain ⟨rfl, hinv, hm, hx⟩ := run_readMemValue h hn hl
    refine ⟨rfl, hinv, ?_⟩
    cases hload : m.flat.load (r.gpr 6).toNat size with
    | some bytes =>
      rw [hload] at hx
      cases hx
    | none =>
      simp only [hload, Except.error.injEq] at hx
      simp only [RepOp.elem, hload, hx, hm, and_true]
      rfl
  · obtain ⟨rfl, hinv, hm, hx⟩ := run_readMemValue h hn hl
    obtain ⟨rfl, hinv', hrest⟩ := run_writeMemValue_flat hinv hn hs
    refine ⟨rfl, hinv', ?_⟩
    cases hload : m.flat.load (r.gpr 6).toNat size with
    | none =>
      rw [hload] at hx
      cases hx
    | some bytes =>
      simp only [hload, Except.ok.injEq] at hx
      have hlen := Flat.length_of_load hload
      -- what is written are the bytes that were read
      have hlt : fromLe bytes < 2 ^ 64 := by
        have h1 := fromLe_lt bytes
        have h2 : 256 ^ bytes.length ≤ 256 ^ 8 := Nat.pow_le_pow_right (by decide) (by
          rw [hlen]
          simp only [List.mem_cons, List.not_mem_nil, or_false] at hn
          omega)
        exact Nat.lt_of_lt_of_le h1 h2
      have hbytes : toLe size v.toNat = bytes := by
        rw [hx, BitVec.toNat_ofNat, Nat.mod_eq_of_lt hlt, ← hlen, toLe_fromLe]
      rw [hbytes, hm] at hrest
      cases hstore : m.flat.store (r.gpr 7).toNat bytes with
      | some f =>
        simp only [hstore] at hrest
        simp only [RepOp.elem, hload, hstore, hrest.1, hrest.2, and_self]
      | none =>
        simp only [hstore] at hrest
        simp only [RepOp.elem, hload, hstore, hrest.1, hrest.2, and_true]
        rfl

theorem dfStep_stored (r : RegFile) (a : BitVec 64) (n : ℕ) :
    dfStep (r.stored a n) size = dfStep r size := rfl

theorem dfStep_moved (r : RegFile) (a b : BitVec 64) (n : ℕ) :
    dfStep (r.moved a b n) size = dfStep r size := rfl

/-- **The loop of STOS.** -/
theorem run_stosLoop (h : Inv env m) (hn : size ∈ [1, 2, 4, 8]) {x : Except StepExecError Unit}
    (hr : (stosLoop size (r.gpr 0 &&& sizeMask size) (dfStep r size) n (r.gpr 7)).run (device env) r
      m = some ((x, r'), m')) : Inv env m' ∧ ElemRun .stos size n r m x r' m' := by
  induction n generalizing r m with
  | zero =>
    cases hr
    exact ⟨h, .ok (), rfl, rfl⟩
  | succ n ih =>
    rcases run_bind_eq_some.mp hr with ⟨e, rfl, he⟩ | ⟨u, r₁, m₁, he, hrest⟩
    · obtain ⟨rfl, hinv, hone⟩ := run_stosOne h hn he
      refine ⟨hinv, ?_⟩
      cases hel : RepOp.stos.elem size (r', m.flat) with
      | ok s =>
        rw [hel] at hone
        cases hone.1
      | error e' =>
        simp only [hel] at hone
        exact .of_error hel hone.2 hone.1
    · obtain ⟨rfl, hinv, hone⟩ := run_stosOne h hn he
      cases hel : RepOp.stos.elem size (r₁, m.flat) with
      | error e' =>
        rw [hel] at hone
        cases hone.1
      | ok s =>
        simp only [hel, true_and] at hone
        have hrax : (r₁.stored (r₁.gpr 7 + dfStep r₁ size) 1).gpr 0 = r₁.gpr 0 :=
          RegFile.stored_gpr _ _ _ (by decide) (by decide)
        have hrest : (stosLoop size (r₁.gpr 0 &&& sizeMask size) (dfStep r₁ size) n
            (r₁.gpr 7 + dfStep r₁ size)).run (device env)
            (r₁.stored (r₁.gpr 7 + dfStep r₁ size) 1) m₁ = some ((x, r'), m') := hrest
        rw [← hrax, ← dfStep_stored r₁ (r₁.gpr 7 + dfStep r₁ size) 1] at hrest
        have hrdi := r₁.stored_rdi (r₁.gpr 7 + dfStep r₁ size) 1
        obtain ⟨hinv', hrun⟩ := ih hinv (by rw [hrdi]; exact hrest)
        exact ⟨hinv', .of_ok (hone ▸ hel) hrun⟩

/-- **The loop of MOVS.** -/
theorem run_movsLoop (h : Inv env m) (hn : size ∈ [1, 2, 4, 8]) {x : Except StepExecError Unit}
    (hr : (movsLoop size (dfStep r size) n (r.gpr 6) (r.gpr 7)).run (device env) r m =
      some ((x, r'), m')) : Inv env m' ∧ ElemRun .movs size n r m x r' m' := by
  induction n generalizing r m with
  | zero =>
    cases hr
    exact ⟨h, .ok (), rfl, rfl⟩
  | succ n ih =>
    rcases run_bind_eq_some.mp hr with ⟨e, rfl, he⟩ | ⟨u, r₁, m₁, he, hrest⟩
    · obtain ⟨rfl, hinv, hone⟩ := run_moveOne h hn he
      refine ⟨hinv, ?_⟩
      cases hel : RepOp.movs.elem size (r', m.flat) with
      | ok s =>
        rw [hel] at hone
        cases hone.1
      | error e' =>
        simp only [hel] at hone
        exact .of_error hel hone.2 hone.1
    · obtain ⟨rfl, hinv, hone⟩ := run_moveOne h hn he
      cases hel : RepOp.movs.elem size (r₁, m.flat) with
      | error e' =>
        rw [hel] at hone
        cases hone.1
      | ok s =>
        simp only [hel, true_and] at hone
        have hrest : (movsLoop size (dfStep r₁ size) n (r₁.gpr 6 + dfStep r₁ size)
            (r₁.gpr 7 + dfStep r₁ size)).run (device env)
            (r₁.moved (r₁.gpr 6 + dfStep r₁ size) (r₁.gpr 7 + dfStep r₁ size) 1) m₁ =
              some ((x, r'), m') := hrest
        rw [← dfStep_moved r₁ (r₁.gpr 6 + dfStep r₁ size) (r₁.gpr 7 + dfStep r₁ size) 1] at hrest
        have hrsi := r₁.moved_rsi (r₁.gpr 6 + dfStep r₁ size) (r₁.gpr 7 + dfStep r₁ size) 1
        have hrdi := r₁.moved_rdi (r₁.gpr 6 + dfStep r₁ size) (r₁.gpr 7 + dfStep r₁ size) 1
        obtain ⟨hinv', hrun⟩ := ih hinv (by rw [hrsi, hrdi]; exact hrest)
        exact ⟨hinv', .of_ok (hone ▸ hel) hrun⟩

/-! ### Chunk by chunk -/

namespace RepOp

variable {op : RepOp} {f f' : Flat} {k : ℕ}

theorem not_movs {p : Prop} (h : stos = movs) : p := by cases h

/-- The registers after `n` elements upwards. -/
def advance (op : RepOp) (size n : ℕ) (r : RegFile) : RegFile :=
  match op with
  | stos => r.stored (r.gpr 7 + .ofNat 64 (n * size)) n
  | movs => r.moved (r.gpr 6 + .ofNat 64 (n * size)) (r.gpr 7 + .ofNat 64 (n * size)) n

/-- All of the `n` elements upwards may be accessed. -/
def Granted (op : RepOp) (size n : ℕ) (r : RegFile) (f : Flat) : Prop :=
  (op = movs → f.Rd (r.gpr 6).toNat (n * size)) ∧ f.Rw (r.gpr 7).toNat (n * size)

/-- The memory after `n` elements upwards. -/
def upwards (op : RepOp) (size n : ℕ) (r : RegFile) (f : Flat) : Flat :=
  match op with
  | stos => (stosUp size n (r, f)).2
  | movs => (movsUp size n (r, f)).2

/-- **Elements upwards.** -/
theorem forward_iff (hl : f.Low) (hdf : r.flag DF = false) {s' : RegFile × Flat} :
    iterateOk (op.elem size) n (r, f) = (.ok (), s') ↔ op.Granted size n r f ∧
      s' = (op.advance size n r, op.upwards size n r f) := by
  cases op with
  | stos =>
    rw [stos_forward_iff hl hdf]
    exact ⟨fun h => ⟨⟨not_movs, h.1⟩, h.2⟩, fun h => ⟨h.1.2, h.2⟩⟩
  | movs =>
    rw [movs_forward_iff hl hdf]
    exact ⟨fun h => ⟨⟨fun _ => h.1, h.2.1⟩, h.2.2⟩, fun h => ⟨h.1.1 rfl, h.1.2, h.2⟩⟩

/-- The bytes that `n` elements write when they are accessed together. -/
def chunk (op : RepOp) (size n : ℕ) (r : RegFile) (f : Flat) : List UInt8 :=
  match op with
  | stos => fillPattern n size (r.gpr 0 &&& sizeMask size)
  | movs => f.bytes (r.gpr 6).toNat (n * size)

@[simp] theorem length_chunk : (op.chunk size n r f).length = n * size := by
  cases op with
  | stos => exact length_fillPattern ..
  | movs => exact Flat.length_bytes ..

/-- The memory after `n` elements upwards, in chunks. -/
def chunked (op : RepOp) (size n : ℕ) (r : RegFile) (f : Flat) : Flat :=
  match op with
  | stos => (stosUp size n (r, f)).2
  | movs => f.copyChunks CHUNK_BYTES (r.gpr 6).toNat (r.gpr 7).toNat (n * size)

theorem granted_congr (hr : f'.readable = f.readable) (hw : f'.writable = f.writable) :
    op.Granted size n r f' ↔ op.Granted size n r f := by
  rw [Granted, Granted, Flat.Rd, Flat.Rd, Flat.Rw, Flat.Rw, hr, hw]

theorem advance_zero (op : RepOp) (size : ℕ) (r : RegFile) : op.advance size 0 r = r := by
  cases op with
  | stos => rw [advance, Nat.zero_mul, BitVec.add_zero, RegFile.stored_zero]
  | movs => rw [advance, Nat.zero_mul, BitVec.add_zero, BitVec.add_zero, RegFile.moved_zero]

theorem advance_advance (op : RepOp) (size n k : ℕ) (r : RegFile) :
    op.advance size k (op.advance size n r) = op.advance size (n + k) r := by
  have hadd : ∀ a : BitVec 64, a + .ofNat 64 (n * size) + .ofNat 64 (k * size) =
      a + .ofNat 64 ((n + k) * size) := fun a => by
    rw [Nat.add_mul, BitVec.ofNat_add, BitVec.add_assoc]
  cases op with
  | stos => rw [advance, advance, advance, RegFile.stored_rdi, RegFile.stored_stored, hadd]
  | movs =>
    rw [advance, advance, advance, RegFile.moved_rsi, RegFile.moved_rdi, RegFile.moved_moved, hadd,
      hadd]

@[simp] theorem advance_flag (op : RepOp) (size n : ℕ) (r : RegFile) (g : BitVec 64) :
    (op.advance size n r).flag g = r.flag g := by
  cases op <;> rfl

@[simp] theorem advance_rcx (op : RepOp) (size n : ℕ) (r : RegFile) :
    (op.advance size n r).gpr 1 = saturatingSub (r.gpr 1) n := by
  cases op with
  | stos => exact RegFile.stored_rcx ..
  | movs => exact RegFile.moved_rcx ..

theorem advance_rax (op : RepOp) (size n : ℕ) (r : RegFile) :
    (op.advance size n r).gpr 0 = r.gpr 0 := by
  cases op with
  | stos => exact RegFile.stored_gpr _ _ _ (by decide) (by decide)
  | movs =>
    rw [advance, RegFile.moved, RegFile.stored_gpr _ _ _ (by decide) (by decide),
      RegFile.setGpr_gpr_of_ne _ _ (by decide)]

theorem advance_rdi (hl : f.Low) (h : op.Granted size n r f) :
    ((op.advance size n r).gpr 7).toNat = (r.gpr 7).toNat + n * size := by
  rw [← hl.toNat_add h.2.rd]
  cases op with
  | stos => rw [advance, RegFile.stored_rdi]
  | movs => rw [advance, RegFile.moved_rdi]

theorem advance_rsi (hl : f.Low) (h : movs.Granted size n r f) :
    ((movs.advance size n r).gpr 6).toNat = (r.gpr 6).toNat + n * size := by
  rw [← hl.toNat_add (h.1 rfl), advance, RegFile.moved_rsi]

/-- Some elements and then more. -/
theorem granted_add (hl : f.Low) : op.Granted size (n + k) r f ↔
    op.Granted size n r f ∧ op.Granted size k (op.advance size n r) f := by
  constructor
  · intro h
    rw [Granted, Nat.add_mul, Flat.rd_append, Flat.rw_append] at h
    have hn : op.Granted size n r f := ⟨fun ho => (h.1 ho).1, h.2.1⟩
    refine ⟨hn, fun ho => ?_, ?_⟩
    · subst ho
      rw [advance_rsi hl hn]
      exact (h.1 rfl).2
    · rw [advance_rdi hl hn]
      exact h.2.2
  · rintro ⟨hn, hk⟩
    rw [Granted, advance_rdi hl hn] at hk
    rw [Granted, Nat.add_mul, Flat.rd_append, Flat.rw_append]
    refine ⟨fun ho => ⟨hn.1 ho, ?_⟩, hn.2, hk.2⟩
    subst ho
    have := hk.1 rfl
    rwa [advance_rsi hl hn] at this

theorem fillPattern_add (n k size : ℕ) (v : BitVec 64) :
    fillPattern (n + k) size v = fillPattern n size v ++ fillPattern k size v := by
  rw [fillPattern, List.replicate_add, List.flatten_append, fillPattern, fillPattern]

/-- Fewer elements than a chunk. -/
theorem chunked_of_lt (op : RepOp) (r : RegFile) (f : Flat) (h : n * size < CHUNK_BYTES) :
    op.chunked size n r f = f.put (r.gpr 7).toNat (op.chunk size n r f) := by
  cases op with
  | stos => rfl
  | movs => exact Flat.copyChunks_of_lt h

/-- A chunk and more. -/
theorem chunked_add (hl : f.Low) (hn : op.Granted size n r f) (hc : n * size = CHUNK_BYTES)
    (k : ℕ) : op.chunked size (n + k) r f =
      op.chunked size k (op.advance size n r) (f.put (r.gpr 7).toNat (op.chunk size n r f)) := by
  have hrdi := advance_rdi hl hn
  cases op with
  | stos =>
    have hput := f.put_append (r.gpr 7).toNat (fillPattern n size (r.gpr 0 &&& sizeMask size))
      (fillPattern k size (r.gpr 0 &&& sizeMask size))
    rw [length_fillPattern, ← fillPattern_add] at hput
    rw [chunked, chunked, stosUp, stosUp, hrdi, advance_rax]
    exact hput.symm
  | movs =>
    rw [chunked, chunked, hrdi, advance_rsi hl hn, Nat.add_mul, hc,
      Flat.copyChunks_step (by decide), chunk, hc]

/-- The elements of a full chunk. -/
theorem chunk_elems (h : size ∈ [1, 2, 4, 8]) : CHUNK_BYTES / size * size = CHUNK_BYTES := by
  simp only [List.mem_cons, List.not_mem_nil, or_false] at h
  rcases h with rfl | rfl | rfl | rfl <;> rfl

theorem chunkElems_eq (h : size ∈ [1, 2, 4, 8]) (remain : ℕ) :
    chunkElems remain size = min remain (CHUNK_BYTES / size) := by
  have hc := chunk_elems h
  have hpos : 0 < size := by
    simp only [List.mem_cons, List.not_mem_nil, or_false] at h
    omega
  rw [chunkElems]
  rcases Nat.le_total remain (CHUNK_BYTES / size) with hle | hle
  · have := Nat.mul_le_mul_right size hle
    rw [Nat.min_eq_left hle, Nat.min_eq_left (by omega), Nat.mul_div_cancel _ hpos]
  · have := Nat.mul_le_mul_right size hle
    rw [Nat.min_eq_right hle, Nat.min_eq_right (by omega)]

/-- The first element that is denied. -/
theorem exists_denied (hn : ¬op.Granted size n r f) :
    ∃ i < n, op.Granted size i r f ∧ ¬op.Granted size (i + 1) r f := by
  induction n with
  | zero =>
    refine absurd ⟨fun _ x h1 h2 => ?_, fun x h1 h2 => ?_⟩ hn <;> rw [Nat.zero_mul] at h2 <;> omega
  | succ n ih =>
    by_cases h : op.Granted size n r f
    · exact ⟨n, n.lt_succ_self, h, hn⟩
    · obtain ⟨i, hi, hg⟩ := ih h
      exact ⟨i, Nat.lt_succ_of_lt hi, hg⟩

/-- When an element is denied. -/
theorem elem_error_iff : (∃ e, op.elem size (r, f) = .error e) ↔ ¬op.Granted size 1 r f := by
  have hok : (∃ s, op.elem size (r, f) = .ok s) ↔ op.Granted size 1 r f := by
    rw [Granted, Nat.one_mul]
    cases op with
    | stos =>
      constructor
      · rintro ⟨s, hs⟩
        exact ⟨not_movs, (elem_stos_ok_iff.mp hs).1⟩
      · exact fun h => ⟨_, elem_stos_ok_iff.mpr ⟨h.2, rfl⟩⟩
    | movs =>
      constructor
      · rintro ⟨s, hs⟩
        have h := elem_movs_ok_iff.mp hs
        exact ⟨fun _ => h.1, h.2.1⟩
      · exact fun h => ⟨_, elem_movs_ok_iff.mpr ⟨h.1 rfl, h.2, rfl⟩⟩
  rw [← hok]
  cases op.elem size (r, f) with
  | ok s => simp
  | error e => simp

/-- Access `n` elements together; whether that was not denied. -/
def tryChunk (op : RepOp) (size n : ℕ) (r : RegFile) : Exec Bool :=
  match op with
  | stos => tryStore (r.gpr 7).toNat (fillPattern n size (r.gpr 0 &&& sizeMask size))
  | movs => do
    let bytes ← tryLoad (r.gpr 6).toNat (n * size)
    match bytes with
    | some bytes => tryStore (r.gpr 7).toNat bytes
    | none => pure false

/-- Access one element. -/
def one (op : RepOp) (size : ℕ) (r : RegFile) : Exec Unit :=
  match op with
  | stos => writeMemValue (r.gpr 7) (r.gpr 0 &&& sizeMask size) size
  | movs => moveOne size (r.gpr 6) (r.gpr 7)

/-- Chunk by chunk, from registers `r` that have not been set. -/
def chunkLoop (op : RepOp) (size : ℕ) : ℕ → ℕ → ℕ → RegFile → Exec Bool
  | fuel + 1, remain, done, r =>
    let elems := chunkElems remain size
    if 0 < remain ∧ 0 < elems then do
      let ok ← op.tryChunk size elems r
      if ok then chunkLoop op size fuel (remain - elems) (done + elems) (op.advance size elems r)
      else do
        alter fun _ => r
        op.one size r
        pure false
    else do
      alter fun _ => r
      pure (decide (0 < done))
  | 0, _, done, r => do
    alter fun _ => r
    pure (decide (0 < done))

theorem stosChunks_eq (fuel remain done : ℕ) (rdi : BitVec 64) :
    stosChunks size (r.gpr 0 &&& sizeMask size) fuel remain done rdi r =
      stos.chunkLoop size fuel remain done (r.stored rdi done) r := by
  have hrax : (r.stored rdi done).gpr 0 = r.gpr 0 :=
    RegFile.stored_gpr _ _ _ (by decide) (by decide)
  induction fuel generalizing remain done rdi with
  | zero => rfl
  | succ fuel ih =>
    rw [stosChunks, chunkLoop]
    by_cases hc : 0 < remain ∧ 0 < chunkElems remain size
    · simp only [if_pos hc, tryChunk, one, RegFile.stored_rdi, hrax, bind_apply]
      refine congrArg (MemProg.write _ _) (funext fun ok => ?_)
      cases ok with
      | true =>
        have hadv : stos.advance size (chunkElems remain size) (r.stored rdi done) =
            r.stored (rdi + .ofNat 64 (chunkElems remain size * size))
              (done + chunkElems remain size) := by
          rw [advance, RegFile.stored_rdi, RegFile.stored_stored]
        show stosChunks size _ fuel _ _ _ r = chunkLoop stos size fuel _ _ _ r
        rw [hadv]
        exact ih _ _ _ (RegFile.stored_gpr _ _ _ (by decide) (by decide))
      | false => rfl
    · simp only [if_neg hc]
      rfl

theorem movsChunks_eq (fuel remain done : ℕ) (rsi rdi : BitVec 64) :
    movsChunks size fuel remain done rsi rdi r =
      movs.chunkLoop size fuel remain done (r.moved rsi rdi done) r := by
  induction fuel generalizing remain done rsi rdi with
  | zero => rfl
  | succ fuel ih =>
    rw [movsChunks, chunkLoop]
    by_cases hc : 0 < remain ∧ 0 < chunkElems remain size
    · have hadv : movs.advance size (chunkElems remain size) (r.moved rsi rdi done) =
          r.moved (rsi + .ofNat 64 (chunkElems remain size * size))
            (rdi + .ofNat 64 (chunkElems remain size * size)) (done + chunkElems remain size) := by
        rw [advance, RegFile.moved_rsi, RegFile.moved_rdi, RegFile.moved_moved]
      simp only [if_pos hc, tryChunk, one, RegFile.moved_rsi, RegFile.moved_rdi, bind_apply]
      refine congrArg (MemProg.read _ _) (funext fun bytes => ?_)
      cases bytes with
      | none => rfl
      | some bytes =>
        refine congrArg (MemProg.write _ _) (funext fun ok => ?_)
        cases ok with
        | true =>
          show movsChunks size fuel _ _ _ _ r = chunkLoop movs size fuel _ _ _ r
          rw [hadv]
          exact ih _ _ _ _
        | false => rfl
    · simp only [if_neg hc]
      rfl

/-- **A chunk.** -/
theorem run_tryChunk {op : RepOp} {x : Except StepExecError Bool} {r₁ : RegFile}
    {m₁ : GuestMemory} (h : Inv env m)
    (hr : (op.tryChunk size n r).run (device env) r' m = some ((x, r₁), m₁)) :
    r₁ = r' ∧ Inv env m₁ ∧ ((op.Granted size n r m.flat ∧ x = .ok true ∧
        m₁.flat = m.flat.put (r.gpr 7).toNat (op.chunk size n r m.flat)) ∨
      (¬op.Granted size n r m.flat ∧ x = .ok false ∧ m₁.flat = m.flat)) := by
  cases op with
  | stos =>
    obtain ⟨rfl, hinv, hs⟩ := run_tryStore h hr
    refine ⟨rfl, hinv, ?_⟩
    cases hf : m.flat.store (r.gpr 7).toNat (fillPattern n size (r.gpr 0 &&& sizeMask size)) with
    | some f =>
      obtain ⟨hrw, rfl⟩ := (Flat.store_eq_some_iff (length_fillPattern ..)).mp hf
      rw [hf] at hs
      exact .inl ⟨⟨not_movs, hrw⟩, hs⟩
    | none =>
      rw [hf] at hs
      refine .inr ⟨fun hg => ?_, hs⟩
      rw [(Flat.store_eq_some_iff (length_fillPattern ..)).mpr ⟨hg.2, rfl⟩] at hf
      cases hf
  | movs =>
    rcases run_bind_eq_some.mp hr with ⟨e, rfl, hl⟩ | ⟨bytes, r₂, m₂, hl, hs⟩
    · obtain ⟨-, -, -, hx⟩ := run_tryLoad h hl
      cases hx
    · obtain ⟨rfl, hinv, hm, hx⟩ := run_tryLoad h hl
      cases hx
      cases hload : m.flat.load (r.gpr 6).toNat (n * size) with
      | none =>
        rw [hload] at hs
        cases hs
        refine ⟨rfl, hinv, .inr ⟨fun hg => ?_, rfl, hm⟩⟩
        rw [Flat.load_eq_some_iff.mpr ⟨hg.1 rfl, rfl⟩] at hload
        cases hload
      | some bytes =>
        obtain ⟨hrd, rfl⟩ := Flat.load_eq_some_iff.mp hload
        rw [hload] at hs
        obtain ⟨rfl, hinv', hs⟩ := run_tryStore hinv hs
        rw [hm] at hs
        refine ⟨rfl, hinv', ?_⟩
        cases hf : m.flat.store (r.gpr 7).toNat (m.flat.bytes (r.gpr 6).toNat (n * size)) with
        | some f =>
          obtain ⟨hrw, rfl⟩ := (Flat.store_eq_some_iff (Flat.length_bytes ..)).mp hf
          rw [hf] at hs
          exact .inl ⟨⟨fun _ => hrd, hrw⟩, hs⟩
        | none =>
          rw [hf] at hs
          refine .inr ⟨fun hg => ?_, hs⟩
          rw [(Flat.store_eq_some_iff (Flat.length_bytes ..)).mpr ⟨hg.2, rfl⟩] at hf
          cases hf

/-- **One element.** -/
theorem run_one {op : RepOp} {x : Except StepExecError Unit} {r₁ : RegFile} {m₁ : GuestMemory}
    (h : Inv env m) (hn : size ∈ [1, 2, 4, 8])
    (hr : (op.one size r).run (device env) r' m = some ((x, r₁), m₁)) :
    r₁ = r' ∧ Inv env m₁ ∧ ((op.Granted size 1 r m.flat ∧ x = .ok ()) ∨
      ∃ e, op.elem size (r, m.flat) = .error e ∧
        x.mapError StepExecError.fault = .error (some e) ∧ m₁.flat = m.flat) := by
  have hspec : r₁ = r' ∧ Inv env m₁ ∧
      match op.elem size (r, m.flat) with
      | .ok _ => x = .ok ()
      | .error e => x.mapError StepExecError.fault = .error (some e) ∧ m₁.flat = m.flat := by
    cases op with
    | stos =>
      obtain ⟨hreg, hinv, hone⟩ := run_stosOne h hn hr
      refine ⟨hreg, hinv, ?_⟩
      cases hel : stos.elem size (r, m.flat) with
      | ok s =>
        rw [hel] at hone
        exact hone.1
      | error e =>
        rw [hel] at hone
        exact hone
    | movs =>
      obtain ⟨hreg, hinv, hone⟩ := run_moveOne h hn hr
      refine ⟨hreg, hinv, ?_⟩
      cases hel : movs.elem size (r, m.flat) with
      | ok s =>
        rw [hel] at hone
        exact hone.1
      | error e =>
        rw [hel] at hone
        exact hone
  obtain ⟨hreg, hinv, hone⟩ := hspec
  refine ⟨hreg, hinv, ?_⟩
  cases hel : op.elem size (r, m.flat) with
  | ok s =>
    rw [hel] at hone
    refine .inl ⟨?_, hone⟩
    by_contra hg
    obtain ⟨e, he⟩ := elem_error_iff.mpr hg
    rw [hel] at he
    cases he
  | error e =>
    rw [hel] at hone
    exact .inr ⟨e, rfl, hone⟩

/-- How the chunks of `remain` elements end, when `done` elements came before. -/
inductive ChunkEnd (op : RepOp) (size remain done : ℕ) (r : RegFile) (f : Flat) :
    Except StepExecError Bool → RegFile → Flat → Prop
  /-- No element is denied. -/
  | all (hg : op.Granted size remain r f) : ChunkEnd op size remain done r f
      (.ok (decide (0 < done + remain))) (op.advance size remain r) (op.chunked size remain r f)
  /-- The first element that is denied is the first of its chunk. -/
  | denied (i : ℕ) (e : ElemFault) (x : Except StepExecError Bool) (hi : i < remain)
      (hmod : i % (CHUNK_BYTES / size) = 0) (hg : op.Granted size i r f)
      (hn : ¬op.Granted size (i + 1) r f)
      (he : op.elem size (op.advance size i r, op.chunked size i r f) = .error e)
      (hx : x.mapError StepExecError.fault = .error (some e)) :
      ChunkEnd op size remain done r f x (op.advance size i r) (op.chunked size i r f)
  /-- It is not, and the instruction is left. -/
  | dropped (i k : ℕ) (f' : Flat) (hi : i < remain) (hmod : i % (CHUNK_BYTES / size) ≠ 0)
      (hg : op.Granted size i r f) (hn : ¬op.Granted size (i + 1) r f) (hk : k ≤ i) :
      ChunkEnd op size remain done r f (.ok false) (op.advance size k r) f'

theorem chunked_zero (op : RepOp) (size : ℕ) (r : RegFile) (f : Flat) :
    op.chunked size 0 r f = f := by
  have hnil : op.chunk size 0 r f = [] := by
    rw [← List.length_eq_zero_iff, length_chunk, Nat.zero_mul]
  rw [chunked_of_lt op r f (by rw [Nat.zero_mul]; decide), hnil, Flat.put_nil]

theorem granted_zero (op : RepOp) (size : ℕ) (r : RegFile) (f : Flat) : op.Granted size 0 r f := by
  refine ⟨fun _ x h1 h2 => ?_, fun x h1 h2 => ?_⟩ <;> rw [Nat.zero_mul] at h2 <;> omega

/-- The first element of all is denied. -/
theorem ChunkEnd.of_denied {op : RepOp} {f : Flat} {remain : ℕ} {e : StepExecError} {e' : ElemFault}
    (done : ℕ) (hpos : 0 < remain) (he : op.elem size (r, f) = .error e') (hx : e.fault = some e') :
    ChunkEnd op size remain done r f (.error e) r f := by
  have h : ChunkEnd op size remain done r f (.error e) _ _ :=
    .denied 0 e' (.error e) hpos (Nat.zero_mod _) (granted_zero ..) (elem_error_iff.mp ⟨e', he⟩)
      (by rwa [advance_zero, chunked_zero]) (congrArg Except.error hx)
  rwa [advance_zero, chunked_zero] at h

/-- Another element of the first chunk is denied. -/
theorem ChunkEnd.of_dropped {op : RepOp} {f : Flat} {remain i : ℕ} (done : ℕ) (f' : Flat)
    (hi : i < remain) (h0 : i ≠ 0) (hc : i < CHUNK_BYTES / size) (hg : op.Granted size i r f)
    (hn : ¬op.Granted size (i + 1) r f) : ChunkEnd op size remain done r f (.ok false) r f' := by
  have h : ChunkEnd op size remain done r f (.ok false) _ f' :=
    .dropped i 0 f' hi (by rwa [Nat.mod_eq_of_lt hc]) hg hn (Nat.zero_le i)
  rwa [advance_zero] at h

theorem ChunkEnd.nil (op : RepOp) (size done : ℕ) (r : RegFile) (f : Flat) :
    ChunkEnd op size 0 done r f (.ok (decide (0 < done))) r f := by
  have h : ChunkEnd op size 0 done r f _ _ _ := .all (granted_zero op size r f)
  rwa [Nat.add_zero, advance_zero, chunked_zero] at h

/-- **A chunk that is not denied, and what comes after it.** -/
theorem ChunkEnd.step {op : RepOp} {f f' : Flat} {remain done elems : ℕ}
    {x : Except StepExecError Bool} (hl : f.Low) (hsize : size ∈ [1, 2, 4, 8])
    (helems : elems = min remain (CHUNK_BYTES / size)) (hg : op.Granted size elems r f)
    (h : ChunkEnd op size (remain - elems) (done + elems) (op.advance size elems r)
      (f.put (r.gpr 7).toNat (op.chunk size elems r f)) x r' f') :
    ChunkEnd op size remain done r f x r' f' := by
  have hfull := chunk_elems hsize
  rcases Nat.lt_or_ge remain (CHUNK_BYTES / size) with hlt | hge
  · -- the last chunk
    obtain rfl : remain = elems := by omega
    have hsmall : remain * size < CHUNK_BYTES := by
      rw [← hfull]
      refine Nat.mul_lt_mul_of_pos_right hlt (Nat.pos_of_ne_zero fun h0 => ?_)
      rw [h0] at hsize
      revert hsize
      decide
    rw [Nat.sub_self] at h
    cases h with
    | all hg' =>
      rw [advance_zero, chunked_zero, Nat.add_zero, ← chunked_of_lt op r f hsmall]
      exact .all hg
    | denied i e x hi => exact absurd hi (Nat.not_lt_zero _)
    | dropped i k f' hi => exact absurd hi (Nat.not_lt_zero _)
  · obtain rfl : elems = CHUNK_BYTES / size := by omega
    have hgranted : ∀ k, op.Granted size k (op.advance size (CHUNK_BYTES / size) r)
        (f.put (r.gpr 7).toNat (op.chunk size (CHUNK_BYTES / size) r f)) ↔
          op.Granted size (CHUNK_BYTES / size + k) r f := by
      intro k
      rw [granted_add hl, granted_congr rfl rfl]
      exact (and_iff_right hg).symm
    cases h with
    | all hg' =>
      rw [advance_advance, ← chunked_add hl hg hfull, Nat.add_assoc, Nat.add_sub_of_le hge]
      refine .all ?_
      rwa [hgranted, Nat.add_sub_of_le hge] at hg'
    | denied i e x hi hmod hg' hn he hx =>
      rw [advance_advance, ← chunked_add hl hg hfull] at he ⊢
      rw [hgranted] at hg' hn
      exact .denied _ e x (by omega) (by rw [Nat.add_mod_left]; exact hmod) hg' hn he hx
    | dropped i k f' hi hmod hg' hn hk =>
      rw [hgranted] at hg' hn
      rw [advance_advance]
      exact .dropped _ _ f' (by omega) (by rw [Nat.add_mod_left]; exact hmod) hg' hn (by omega)

/-- **Chunk by chunk.** -/
theorem run_chunkLoop {op : RepOp} {fuel remain done : ℕ} {r₀ : RegFile}
    {x : Except StepExecError Bool} (h : Inv env m) (hsize : size ∈ [1, 2, 4, 8])
    (hfuel : remain ≤ fuel)
    (hr : (op.chunkLoop size fuel remain done r).run (device env) r₀ m = some ((x, r'), m')) :
    Inv env m' ∧ ChunkEnd op size remain done r m.flat x r' m'.flat := by
  have hc : 0 < CHUNK_BYTES / size := by
    simp only [List.mem_cons, List.not_mem_nil, or_false] at hsize
    rcases hsize with rfl | rfl | rfl | rfl <;> decide
  induction fuel generalizing remain done r m with
  | zero =>
    obtain rfl : remain = 0 := by omega
    cases hr
    exact ⟨h, .nil ..⟩
  | succ fuel ih =>
    rw [chunkLoop] at hr
    have helems := chunkElems_eq hsize remain
    rcases Nat.eq_zero_or_pos remain with rfl | hpos
    · rw [if_neg (by omega)] at hr
      cases hr
      exact ⟨h, .nil ..⟩
    rw [if_pos ⟨hpos, by omega⟩] at hr
    rcases run_bind_eq_some.mp hr with ⟨e, rfl, ht⟩ | ⟨ok, r₁, m₁, ht, hrest⟩
    · obtain ⟨-, -, ⟨-, hx, -⟩ | ⟨-, hx, -⟩⟩ := run_tryChunk h ht <;> cases hx
    obtain ⟨rfl, hinv, ⟨hg, hx, hm⟩ | ⟨hn, hx, hm⟩⟩ := run_tryChunk h ht
    · cases hx
      obtain ⟨hinv', hend⟩ := ih hinv (by omega) hrest
      rw [hm] at hend
      exact ⟨hinv', .step h.low hsize helems hg hend⟩
    · cases hx
      obtain ⟨i, hi, hgi, hni⟩ := exists_denied hn
      have hrest : (op.one size r >>= fun _ => pure false).run (device env) r m₁ =
          some ((x, r'), m') := hrest
      rcases run_bind_eq_some.mp hrest with ⟨e, rfl, ho⟩ | ⟨u, r₂, m₂, ho, hpure⟩
      · -- the first element of the chunk is denied too
        obtain ⟨rfl, hinv', ⟨-, hx⟩ | ⟨e', he, hx, hm'⟩⟩ := run_one hinv hsize ho
        · cases hx
        rw [hm] at he hm'
        rw [hm']
        exact ⟨hinv', .of_denied done hpos he (Except.error.inj hx)⟩
      · obtain ⟨rfl, hinv', ⟨hone, -⟩ | ⟨e', -, hx, -⟩⟩ := run_one hinv hsize ho
        · cases hpure
          rw [hm] at hone
          have hi0 : i ≠ 0 := by
            rintro rfl
            exact hni hone
          exact ⟨hinv', .of_dropped done m'.flat (by omega) hi0 (by omega) hgi hni⟩
        · cases hx

end RepOp

/-! ### Spans -/

theorem ofNat_mul_dfStep (hdf : r.flag DF = false) (a : BitVec 64) (n : ℕ) :
    a + .ofNat 64 n * dfStep r size = a + .ofNat 64 (n * size) := by
  rw [RepOp.dfStep_of_clear hdf, BitVec.ofNat_mul]

theorem ofNat_mul_dfStep' (hdf : r.flag DF = true) (a : BitVec 64) (n : ℕ) :
    a + .ofNat 64 n * dfStep r size = a - .ofNat 64 (n * size) := by
  rw [RepOp.dfStep_of_set hdf, BitVec.ofNat_mul, BitVec.mul_neg, ← BitVec.sub_eq_add_neg]

/-- **The span of STOS.** -/
theorem run_stosSpan {bulk : Bool} {x : Except StepExecError Bool} (h : Inv env m)
    (hr : (stosSpan bulk size n (r.gpr 0 &&& sizeMask size)).run (device env) r m =
      some ((x, r'), m')) : Inv env m' ∧ ((x = .ok false ∧ r' = r ∧ m'.flat = m.flat) ∨
      (x = .ok true ∧
        iterateOk (RepOp.stos.elem size) n (r, m.flat) = (.ok (), (r', m'.flat)))) := by
  have hr : (if bulk ∧ 1 < n ∧ REP_HOST_BULK_MIN_BYTES ≤ n * size ∧
      (r.flag DF = true → (n - 1) * size ≤ (r.gpr 7).toNat) then do
        let filled ← tryFill
          (if r.flag DF then (r.gpr 7).toNat - (n - 1) * size else (r.gpr 7).toNat)
          (fillPattern n size (r.gpr 0 &&& sizeMask size))
        if filled then alter fun s => s.stored (r.gpr 7 + .ofNat 64 n * dfStep s size) n
        pure filled
      else pure false : Exec Bool).run (device env) r m = some ((x, r'), m') := hr
  by_cases hc : bulk ∧ 1 < n ∧ REP_HOST_BULK_MIN_BYTES ≤ n * size ∧
      (r.flag DF = true → (n - 1) * size ≤ (r.gpr 7).toNat)
  · rw [if_pos hc] at hr
    obtain ⟨-, hn, -, hle⟩ := hc
    rcases run_bind_eq_some.mp hr with ⟨e, rfl, hf⟩ | ⟨filled, r₁, m₁, hf, hrest⟩
    · obtain ⟨-, -, ⟨hx, -⟩ | ⟨hx, -⟩⟩ := run_tryFill h hf <;> cases hx
    obtain ⟨rfl, hinv, ⟨hx, hm⟩ | ⟨hx, hs⟩⟩ := run_tryFill h hf
    · cases hx
      cases hrest
      exact ⟨hinv, .inl ⟨rfl, rfl, hm⟩⟩
    · cases hx
      cases hrest
      obtain ⟨hrw, hm⟩ := (Flat.store_eq_some_iff (RepOp.length_fillPattern ..)).mp hs
      refine ⟨hinv, .inr ⟨rfl, ?_⟩⟩
      rw [hm]
      beta_reduce
      cases hdf : r₁.flag DF with
      | false =>
        rw [hdf] at hrw
        rw [ofNat_mul_dfStep hdf]
        exact (RepOp.stos_forward_iff h.low hdf).mpr ⟨hrw, rfl⟩
      | true =>
        rw [hdf] at hrw
        obtain ⟨k, rfl⟩ : ∃ k, n = k + 1 := ⟨n - 1, by omega⟩
        rw [ofNat_mul_dfStep' hdf]
        exact RepOp.stos_backward hdf (hle hdf) hrw
  · rw [if_neg hc] at hr
    cases hr
    exact ⟨h, .inl ⟨rfl, rfl, rfl⟩⟩

/-- Ranges that do not wrap around are told apart. -/
theorem apart_of_rangesOverlap {a b : BitVec 64} (hpos : 0 < n) (ha : a.toNat + n ≤ 2 ^ 64)
    (hb : b.toNat + n ≤ 2 ^ 64) (hlt : n < 2 ^ 64)
    (h : rangesOverlap a b (.ofNat 64 n) = false) :
    a.toNat + n ≤ b.toNat ∨ b.toNat + n ≤ a.toNat := by
  have hone : (BitVec.ofNat 64 n - 1).toNat = n - 1 := by
    have hn : (BitVec.ofNat 64 n).toNat = n := by rw [BitVec.toNat_ofNat, Nat.mod_eq_of_lt hlt]
    have hle : (1 : BitVec 64) ≤ .ofNat 64 n := by rwa [BitVec.le_def, hn]
    rw [BitVec.toNat_sub_of_le hle, hn]
    rfl
  have hend : ∀ c : BitVec 64, c.toNat + n ≤ 2 ^ 64 →
      (c + (BitVec.ofNat 64 n - 1)).toNat = c.toNat + (n - 1) := fun c hc => by
    rw [BitVec.toNat_add, hone, Nat.mod_eq_of_lt (by omega)]
  have hne : BitVec.ofNat 64 n ≠ 0 := by
    intro h0
    have := congrArg BitVec.toNat h0
    rw [BitVec.toNat_ofNat, Nat.mod_eq_of_lt hlt] at this
    exact absurd this hpos.ne'
  rw [rangesOverlap, Bool.and_eq_false_iff, Bool.and_eq_false_iff] at h
  rcases h with (h | h) | h
  · rw [decide_eq_false_iff_not, ne_eq, not_not] at h
    exact absurd h hne
  · rw [decide_eq_false_iff_not, BitVec.le_def, hend b hb] at h
    omega
  · rw [decide_eq_false_iff_not, BitVec.le_def, hend a ha] at h
    omega

/-- Where the lowest element of a range is. -/
theorem toNat_lowestAddress {f : Flat} (hl : f.Low) (hdf : r.flag DF = true) {a : BitVec 64}
    (h : f.Rd (lowestAddress r a size (n + 1)).toNat ((n + 1) * size)) (hsize : 0 < size) :
    n * size ≤ a.toNat ∧ (lowestAddress r a size (n + 1)).toNat = a.toNat - n * size := by
  have hlow : lowestAddress r a size (n + 1) = a - .ofNat 64 (n * size) := by
    rw [lowestAddress, if_pos hdf, Nat.add_sub_cancel]
  have htop := hl _ (h ((lowestAddress r a size (n + 1)).toNat + n * size) (Nat.le_add_right ..) (by
    rw [Nat.succ_mul]
    omega))
  rw [hlow] at htop ⊢
  have hback : a = a - .ofNat 64 (n * size) + .ofNat 64 (n * size) := (BitVec.sub_add_cancel ..).symm
  have hnat : a.toNat = (a - .ofNat 64 (n * size)).toNat + n * size := by
    conv_lhs => rw [hback]
    rw [BitVec.toNat_add, BitVec.toNat_ofNat, Nat.add_mod_mod, Nat.mod_eq_of_lt (by omega)]
  omega

/-- **The span of MOVS.** -/
theorem run_movsSpan {bulk : Bool} {x : Except StepExecError Bool} (h : Inv env m)
    (hsize : 0 < size)
    (hr : (movsSpan bulk size n).run (device env) r m = some ((x, r'), m')) :
    Inv env m' ∧ ((x = .ok false ∧ r' = r ∧ m'.flat = m.flat) ∨
      (x = .ok true ∧
        iterateOk (RepOp.movs.elem size) n (r, m.flat) = (.ok (), (r', m'.flat)))) := by
  have hr : (if bulk ∧ 1 < n ∧ REP_HOST_BULK_MIN_BYTES ≤ n * size ∧
      rangesOverlap (lowestAddress r (r.gpr 6) size n) (lowestAddress r (r.gpr 7) size n)
        (.ofNat 64 (n * size)) = false then do
        let copied ← tryCopy (lowestAddress r (r.gpr 6) size n).toNat
          (lowestAddress r (r.gpr 7) size n).toNat (n * size)
        let delta := .ofNat 64 n * dfStep r size
        if copied then alter fun s => s.moved (r.gpr 6 + delta) (r.gpr 7 + delta) n
        pure copied
      else pure false : Exec Bool).run (device env) r m = some ((x, r'), m') := hr
  by_cases hc : bulk ∧ 1 < n ∧ REP_HOST_BULK_MIN_BYTES ≤ n * size ∧
      rangesOverlap (lowestAddress r (r.gpr 6) size n) (lowestAddress r (r.gpr 7) size n)
        (.ofNat 64 (n * size)) = false
  · rw [if_pos hc] at hr
    obtain ⟨-, hn, -, hover⟩ := hc
    rcases run_bind_eq_some.mp hr with ⟨e, rfl, hf⟩ | ⟨copied, r₁, m₁, hf, hrest⟩
    · obtain ⟨-, -, ⟨hx, -⟩ | ⟨hx, -⟩⟩ := run_tryCopy h hf <;> cases hx
    obtain ⟨rfl, hinv, ⟨hx, hm⟩ | ⟨hx, hload, hs⟩⟩ := run_tryCopy h hf
    · cases hx
      cases hrest
      exact ⟨hinv, .inl ⟨rfl, rfl, hm⟩⟩
    · cases hx
      cases hrest
      obtain ⟨hrd, -⟩ := Flat.load_eq_some_iff.mp hload
      obtain ⟨hrw, hm⟩ := (Flat.store_eq_some_iff (Flat.length_bytes ..)).mp hs
      have hpos : 0 < n * size := Nat.mul_pos (by omega) hsize
      have hend := hinv.low
      -- neither range reaches the top
      have hsrc := h.low _ (hrd ((lowestAddress r₁ (r₁.gpr 6) size n).toNat + n * size - 1)
        (by omega) (by omega))
      have hdst := h.low _ (hrw.rd ((lowestAddress r₁ (r₁.gpr 7) size n).toNat + n * size - 1)
        (by omega) (by omega))
      have hapart := apart_of_rangesOverlap hpos (by omega) (by omega) (by omega) hover
      refine ⟨hinv, .inr ⟨rfl, ?_⟩⟩
      rw [hm]
      cases hdf : r₁.flag DF with
      | false =>
        have hlow : ∀ a, lowestAddress r₁ a size n = a := fun a => by
          rw [lowestAddress, hdf, if_neg Bool.false_ne_true]
        simp only [hlow] at hrd hrw hapart ⊢
        rw [ofNat_mul_dfStep hdf, ofNat_mul_dfStep hdf,
          ← Flat.copyElems_of_apart hsize (hapart.symm.imp (by omega) id)]
        exact (RepOp.movs_forward_iff h.low hdf).mpr ⟨hrd, hrw, rfl⟩
      | true =>
        obtain ⟨k, rfl⟩ : ∃ k, n = k + 1 := ⟨n - 1, by omega⟩
        obtain ⟨hle, hlow⟩ := toNat_lowestAddress h.low hdf hrd hsize
        obtain ⟨hle', hlow'⟩ := toNat_lowestAddress h.low hdf hrw.rd hsize
        rw [hlow, hlow'] at hapart ⊢
        rw [hlow] at hrd
        rw [hlow'] at hrw
        rw [ofNat_mul_dfStep' hdf, ofNat_mul_dfStep' hdf]
        rw [Nat.succ_mul] at hapart
        exact RepOp.movs_backward hdf hle hle' hrd hrw (by omega)
  · rw [if_neg hc] at hr
    cases hr
    exact ⟨h, .inl ⟨rfl, rfl, rfl⟩⟩

/-! ### One step of the instruction -/

namespace RepOp

/-- `run_string_op`, for the repeated instructions. -/
def exec (op : RepOp) (bulk : Bool) (size : ℕ) : Exec Bool :=
  match op with
  | stos => stringStos bulk size true
  | movs => stringMovs bulk size true

/-- The elements of one step. -/
def stepElems (r : RegFile) : ℕ := min (r.gpr 1).toNat REP_BULK_MAX

/-- Whether chunks are taken where a span is not. -/
def Chunks (op : RepOp) (size : ℕ) (r : RegFile) : Prop :=
  r.flag DF = false ∧ 1 < stepElems r ∧
    (op = movs → rangesOverlap (r.gpr 6) (r.gpr 7) (.ofNat 64 (stepElems r * size)) = false)

/-- A step does its elements. -/
def StepElems (op : RepOp) (size n : ℕ) (r : RegFile) (f : Flat) (x : Except StepExecError Bool)
    (r' : RegFile) (f' : Flat) : Prop :=
  ∃ y, iterateOk (op.elem size) n (r, f) = (y, (r', f')) ∧
    x.mapError StepExecError.fault = (y.map fun _ => true).mapError some

theorem run_exec_zero {op : RepOp} {bulk : Bool} {x : Except StepExecError Bool}
    (hrcx : r.gpr 1 = 0)
    (hr : (op.exec bulk size).run (device env) r m = some ((x, r'), m')) :
    x = .ok false ∧ r' = r ∧ m' = m := by
  have hr : (pure false : Exec Bool).run (device env) r m = some ((x, r'), m') := by
    rw [← hr]
    cases op with
    | stos =>
      show _ = (if r.gpr 1 = 0 then pure false else _ : Exec Bool).run (device env) r m
      rw [if_pos hrcx]
    | movs =>
      show _ = (if r.gpr 1 = 0 then pure false else _ : Exec Bool).run (device env) r m
      rw [if_pos hrcx]
  cases hr
  exact ⟨rfl, rfl, rfl⟩

/-- A loop, and the instruction stays. -/
theorem stepElems_of_loop {op : RepOp} {y : Exec Unit} {x : Except StepExecError Bool}
    (hloop : ∀ {v r' m'}, y.run (device env) r m = some ((v, r'), m') →
      Inv env m' ∧ ElemRun op size n r m v r' m')
    (hr : (y >>= fun _ => pure true).run (device env) r m = some ((x, r'), m')) :
    Inv env m' ∧ op.StepElems size n r m.flat x r' m'.flat := by
  rcases run_bind_eq_some.mp hr with ⟨e, rfl, hy⟩ | ⟨u, r₁, m₁, hy, hrest⟩
  · obtain ⟨hinv, v, hv, hx⟩ := hloop hy
    refine ⟨hinv, v, hv, ?_⟩
    cases v with
    | ok u => cases hx
    | error e' => exact congrArg Except.error (Except.error.inj hx)
  · cases hrest
    obtain ⟨hinv, v, hv, hx⟩ := hloop hy
    refine ⟨hinv, v, hv, ?_⟩
    cases v with
    | ok u => rfl
    | error e' => cases hx

/-- **One step**: its elements, or chunks of them. -/
theorem run_exec {op : RepOp} {bulk : Bool} {x : Except StepExecError Bool} (h : Inv env m)
    (hsize : size ∈ [1, 2, 4, 8]) (hrcx : r.gpr 1 ≠ 0)
    (hr : (op.exec bulk size).run (device env) r m = some ((x, r'), m')) : Inv env m' ∧
      ((op.StepElems size (stepElems r) r m.flat x r' m'.flat ∧ (x = .ok true ∨ ¬op.Chunks size r)) ∨
        (op.Chunks size r ∧ ChunkEnd op size (stepElems r) 0 r m.flat x r' m'.flat)) := by
  have hpos : 0 < size := by
    simp only [List.mem_cons, List.not_mem_nil, or_false] at hsize
    omega
  cases op with
  | stos =>
    have hr : (if r.gpr 1 = 0 then pure false else do
        let filled ← stosSpan bulk size (stepElems r) (r.gpr 0 &&& sizeMask size)
        if filled then pure true
        else if r.flag DF = false ∧ 1 < stepElems r then
          stosChunks size (r.gpr 0 &&& sizeMask size) (stepElems r) (stepElems r) 0 (r.gpr 7)
        else do
          stosLoop size (r.gpr 0 &&& sizeMask size) (dfStep r size) (stepElems r) (r.gpr 7)
          pure true : Exec Bool).run (device env) r m = some ((x, r'), m') := hr
    rw [if_neg hrcx] at hr
    rcases run_bind_eq_some.mp hr with ⟨e, rfl, hs⟩ | ⟨filled, r₁, m₁, hs, hrest⟩
    · obtain ⟨-, ⟨hx, -⟩ | ⟨hx, -⟩⟩ := run_stosSpan h hs <;> cases hx
    obtain ⟨hinv, ⟨hx, rfl, hm⟩ | ⟨hx, hall⟩⟩ := run_stosSpan h hs
    · cases hx
      rw [if_neg Bool.false_ne_true] at hrest
      by_cases hc : r₁.flag DF = false ∧ 1 < stepElems r₁
      · rw [if_pos hc, run, stosChunks_eq, RegFile.stored_zero] at hrest
        obtain ⟨hinv', hend⟩ := run_chunkLoop hinv hsize le_rfl hrest
        rw [hm] at hend
        exact ⟨hinv', .inr ⟨⟨hc.1, hc.2, not_movs⟩, hend⟩⟩
      · rw [if_neg hc] at hrest
        obtain ⟨hinv', hend⟩ := stepElems_of_loop (fun hy => run_stosLoop hinv hsize hy) hrest
        rw [hm] at hend
        exact ⟨hinv', .inl ⟨hend, .inr fun hch => hc ⟨hch.1, hch.2.1⟩⟩⟩
    · cases hx
      cases hrest
      exact ⟨hinv, .inl ⟨⟨.ok (), hall, rfl⟩, .inl rfl⟩⟩
  | movs =>
    have hr : (if r.gpr 1 = 0 then pure false else do
        let copied ← movsSpan bulk size (stepElems r)
        if copied then pure true
        else if r.flag DF = false ∧ 1 < stepElems r ∧
            rangesOverlap (lowestAddress r (r.gpr 6) size (stepElems r))
              (lowestAddress r (r.gpr 7) size (stepElems r)) (.ofNat 64 (stepElems r * size)) =
                false then
          movsChunks size (stepElems r) (stepElems r) 0 (r.gpr 6) (r.gpr 7)
        else do
          movsLoop size (dfStep r size) (stepElems r) (r.gpr 6) (r.gpr 7)
          pure true : Exec Bool).run (device env) r m = some ((x, r'), m') := hr
    rw [if_neg hrcx] at hr
    rcases run_bind_eq_some.mp hr with ⟨e, rfl, hs⟩ | ⟨copied, r₁, m₁, hs, hrest⟩
    · obtain ⟨-, ⟨hx, -⟩ | ⟨hx, -⟩⟩ := run_movsSpan h hpos hs <;> cases hx
    obtain ⟨hinv, ⟨hx, rfl, hm⟩ | ⟨hx, hall⟩⟩ := run_movsSpan h hpos hs
    · cases hx
      rw [if_neg Bool.false_ne_true] at hrest
      by_cases hc : r₁.flag DF = false ∧ 1 < stepElems r₁ ∧
          rangesOverlap (lowestAddress r₁ (r₁.gpr 6) size (stepElems r₁))
            (lowestAddress r₁ (r₁.gpr 7) size (stepElems r₁)) (.ofNat 64 (stepElems r₁ * size)) =
              false
      · rw [if_pos hc, run, movsChunks_eq, RegFile.moved_zero] at hrest
        obtain ⟨hinv', hend⟩ := run_chunkLoop hinv hsize le_rfl hrest
        rw [hm] at hend
        refine ⟨hinv', .inr ⟨⟨hc.1, hc.2.1, fun _ => ?_⟩, hend⟩⟩
        have hover := hc.2.2
        rwa [lowestAddress, lowestAddress, hc.1, if_neg Bool.false_ne_true,
          if_neg Bool.false_ne_true] at hover
      · rw [if_neg hc] at hrest
        obtain ⟨hinv', hend⟩ := stepElems_of_loop (fun hy => run_movsLoop hinv hsize hy) hrest
        rw [hm] at hend
        refine ⟨hinv', .inl ⟨hend, .inr fun hch => hc ⟨hch.1, hch.2.1, ?_⟩⟩⟩
        rw [lowestAddress, lowestAddress, hch.1, if_neg Bool.false_ne_true,
          if_neg Bool.false_ne_true]
        exact hch.2.2 rfl
    · cases hx
      cases hrest
      exact ⟨hinv, .inl ⟨⟨.ok (), hall, rfl⟩, .inl rfl⟩⟩

end RepOp

end Wie
