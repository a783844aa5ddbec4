import Wie.Cpu.StringRuns

/-!
# Bulk execution of REP STOS and REP MOVS

A repeated string instruction runs in steps until it is left. Here a whole run is compared with the
elements it stands for, up to the first that is denied.

They are the same except for a step that goes in chunks and has an element that is denied. There the
first such element must be the first of a chunk; if it is not, the run leaves the instruction
without a fault. And a chunk of MOVS is read as a whole: where the target starts inside the source,
bytes have come from where elements would have put them before.

## Main definitions

* `RepRuns` — steps until the instruction is left
* `RepOp.ChunksAgree` — the condition on a step

## Main results

* `RepOp.repRuns_elements_iff` — when a run ends as its elements do
-/

namespace Wie

open Cmd GuestMemory Rflags

variable {env : HostEnv} {m m' : GuestMemory} {r r' : RegFile} {size n : ℕ} {op : RepOp}
  {f f' : Flat}

/-- Steps are made until the instruction is left, without a fault or with one. -/
inductive RepRuns (env : HostEnv) (step : Exec Bool) : RegFile → GuestMemory →
    Except StepExecError Unit → RegFile → GuestMemory → Prop
  /-- The instruction is left. -/
  | left {r r' : RegFile} {m m' : GuestMemory}
      (h : step.run (device env) r m = some ((.ok false, r'), m')) :
      RepRuns env step r m (.ok ()) r' m'
  /-- An access is denied. -/
  | faulted {r r' : RegFile} {m m' : GuestMemory} {e : StepExecError}
      (h : step.run (device env) r m = some ((.error e, r'), m')) :
      RepRuns env step r m (.error e) r' m'
  /-- The instruction goes on. -/
  | stay {r r₁ r' : RegFile} {m m₁ m' : GuestMemory} {x : Except StepExecError Unit}
      (h : step.run (device env) r m = some ((.ok true, r₁), m₁))
      (hrest : RepRuns env step r₁ m₁ x r' m') : RepRuns env step r m x r' m'

namespace RepOp

/-- A step in chunks does its elements: the first element that is denied is the first of a chunk,
and the chunks of MOVS before it leave what its elements leave. -/
def ChunksAgree (op : RepOp) (size : ℕ) (r : RegFile) (f : Flat) : Prop :=
  ∀ i < stepElems r, op.Granted size i r f → ¬op.Granted size (i + 1) r f →
    i % (CHUNK_BYTES / size) = 0 ∧ (op = movs → ∀ j < i * size,
      f.byte ((r.gpr 6).toNat + origin CHUNK_BYTES ((r.gpr 7).toNat - (r.gpr 6).toNat) j) =
        f.byte ((r.gpr 6).toNat + origin size ((r.gpr 7).toNat - (r.gpr 6).toNat) j))

/-! ### Elements -/

theorem readable_upwards (op : RepOp) (size n : ℕ) (r : RegFile) (f : Flat) :
    (op.upwards size n r f).readable = f.readable := by
  cases op with
  | stos => rfl
  | movs => exact Flat.readable_copyElems ..

theorem writable_upwards (op : RepOp) (size n : ℕ) (r : RegFile) (f : Flat) :
    (op.upwards size n r f).writable = f.writable := by
  cases op with
  | stos => rfl
  | movs => exact Flat.writable_copyElems ..

theorem Granted.of_le {k : ℕ} (h : op.Granted size n r f) (hk : k ≤ n) : op.Granted size k r f := by
  have hle := Nat.mul_le_mul_right size hk
  exact ⟨fun ho x h1 h2 => h.1 ho x h1 (by omega), fun x h1 h2 => h.2 x h1 (by omega)⟩

/-- What is said of a denied element depends on permissions only. -/
theorem elem_error_congr (hr : f'.readable = f.readable) (hw : f'.writable = f.writable)
    {e : ElemFault} (h : op.elem size (r, f) = .error e) : op.elem size (r, f') = .error e := by
  have hstore : ∀ {bs bs' : List UInt8} {a : ℕ}, bs.length = bs'.length → f.store a bs = none →
      f'.store a bs' = none := by
    intro bs bs' a hlen hs
    have := Flat.store_eq_none hs
    cases hs' : f'.store a bs' with
    | none => rfl
    | some g =>
      obtain ⟨hg, -⟩ := (Flat.store_eq_some_iff rfl).mp hs'
      rw [Flat.Rw, hw, ← hlen] at hg
      exact absurd hg this
  cases op with
  | stos =>
    simp only [elem] at h ⊢
    cases hs : f.store (r.gpr 7).toNat (toLe size (r.gpr 0 &&& sizeMask size).toNat) with
    | some g =>
      rw [hs] at h
      cases h
    | none =>
      rw [hs] at h
      rw [hstore rfl hs]
      exact h
  | movs =>
    simp only [elem] at h ⊢
    cases hl : f.load (r.gpr 6).toNat size with
    | none =>
      have hl' : f'.load (r.gpr 6).toNat size = none := by
        cases hl' : f'.load (r.gpr 6).toNat size with
        | none => rfl
        | some bs =>
          obtain ⟨hg, -⟩ := Flat.load_eq_some_iff.mp hl'
          rw [Flat.Rd, hr] at hg
          rw [Flat.load_eq_some_iff.mpr ⟨hg, rfl⟩] at hl
          cases hl
      rw [hl] at h
      rw [hl']
      exact h
    | some bs =>
      obtain ⟨hg, rfl⟩ := Flat.load_eq_some_iff.mp hl
      have hl' : f'.load (r.gpr 6).toNat size = some (f'.bytes (r.gpr 6).toNat size) := by
        refine Flat.load_eq_some_iff.mpr ⟨?_, rfl⟩
        rw [Flat.Rd, hr]
        exact hg
      rw [hl] at h
      rw [hl']
      simp only at h ⊢
      cases hs : f.store (r.gpr 7).toNat (f.bytes (r.gpr 6).toNat size) with
      | some g =>
        rw [hs] at h
        cases h
      | none =>
        rw [hs] at h
        rw [hstore (by rw [Flat.length_bytes, Flat.length_bytes]) hs]
        exact h

/-- RCX after elements. -/
theorem iterateOk_rcx {s s' : RegFile × Flat}
    (h : iterateOk (op.elem size) n s = (.ok (), s')) :
    s'.1.gpr 1 = saturatingSub (s.1.gpr 1) n := by
  induction n generalizing s' with
  | zero =>
    cases h
    rw [RegFile.saturatingSub_zero]
  | succ n ih =>
    obtain ⟨s₁, h₁, he⟩ := iterateOk_succ_iff.mp h
    rw [← RegFile.saturatingSub_add, ← ih h₁]
    cases op with
    | stos =>
      rw [(elem_stos_ok_iff.mp he).2]
      exact RegFile.stored_rcx ..
    | movs =>
      rw [(elem_movs_ok_iff.mp he).2.2]
      exact RegFile.moved_rcx ..

/-- The first element that is denied is where the elements end. -/
theorem failsAt_of_denied (hl : f.Low) (hdf : r.flag DF = false) {i : ℕ} {e : ElemFault}
    {g : Flat} (hg : op.Granted size i r f) (hr : g.readable = f.readable)
    (hw : g.writable = f.writable) (he : op.elem size (op.advance size i r, g) = .error e) :
    FailsAt (op.elem size) (r, f) i e (op.advance size i r, op.upwards size i r f) := by
  refine ⟨(forward_iff hl hdf).mpr ⟨hg, rfl⟩, elem_error_congr ?_ ?_ he⟩
  · rw [readable_upwards, hr]
  · rw [writable_upwards, hw]

/-! ### Chunks -/

/-- Chunks of which none is denied leave what their elements leave. -/
theorem chunked_of_granted (hl : f.Low) (hsize : 0 < size) (hc : op.Chunks size r)
    (hg : op.Granted size (stepElems r) r f) :
    op.chunked size (stepElems r) r f = op.upwards size (stepElems r) r f := by
  cases op with
  | stos => rfl
  | movs =>
    have hpos : 0 < stepElems r * size := Nat.mul_pos (by have := hc.2.1; omega) hsize
    have hsrc := hl _ (hg.1 rfl ((r.gpr 6).toNat + stepElems r * size - 1) (by omega) (by omega))
    have hdst := hl _ (hg.2.rd ((r.gpr 7).toNat + stepElems r * size - 1) (by omega) (by omega))
    have hapart : Flat.Apart (r.gpr 6).toNat (r.gpr 7).toNat (stepElems r * size) :=
      (apart_of_rangesOverlap hpos (by omega) (by omega) (by omega) (hc.2.2 rfl)).symm.imp
        (by omega) id
    show f.copyChunks _ _ _ _ = f.copyElems _ _ _ _
    rw [Flat.copyChunks_of_apart (by decide) hapart, Flat.copyElems_of_apart hsize hapart]

/-- What full chunks leave. -/
theorem chunked_eq_upwards_iff (hsize : size ∈ [1, 2, 4, 8]) {i : ℕ}
    (hmod : i % (CHUNK_BYTES / size) = 0) : op.chunked size i r f = op.upwards size i r f ↔
      (op = movs → ∀ j < i * size,
        f.byte ((r.gpr 6).toNat + origin CHUNK_BYTES ((r.gpr 7).toNat - (r.gpr 6).toNat) j) =
          f.byte ((r.gpr 6).toNat + origin size ((r.gpr 7).toNat - (r.gpr 6).toNat) j)) := by
  cases op with
  | stos => exact ⟨fun _ => not_movs, fun _ => rfl⟩
  | movs =>
    have hpos : 0 < size := by
      simp only [List.mem_cons, List.not_mem_nil, or_false] at hsize
      omega
    have hlen : i * size = i / (CHUNK_BYTES / size) * CHUNK_BYTES := by
      have hfull := congrArg (i / (CHUNK_BYTES / size) * ·) (chunk_elems hsize)
      simp only [← Nat.mul_assoc, Nat.div_mul_cancel (Nat.dvd_of_mod_eq_zero hmod)] at hfull
      exact hfull
    have hchunk : ∀ x, (movs.chunked size i r f).byte x =
        if (r.gpr 7).toNat ≤ x ∧ x < (r.gpr 7).toNat + i * size then f.byte ((r.gpr 6).toNat +
          origin CHUNK_BYTES ((r.gpr 7).toNat - (r.gpr 6).toNat) (x - (r.gpr 7).toNat))
        else f.byte x := by
      intro x
      rw [chunked, hlen, Flat.copyChunks_mul (by decide), Flat.byte_copyElems (by decide)]
    have helem : ∀ x, (movs.upwards size i r f).byte x =
        if (r.gpr 7).toNat ≤ x ∧ x < (r.gpr 7).toNat + i * size then f.byte ((r.gpr 6).toNat +
          origin size ((r.gpr 7).toNat - (r.gpr 6).toNat) (x - (r.gpr 7).toNat))
        else f.byte x := Flat.byte_copyElems hpos f _ _ i
    constructor
    · intro h _ j hj
      have hx := congrArg (fun g => g.byte ((r.gpr 7).toNat + j)) h
      simp only [hchunk, helem] at hx
      rwa [if_pos (by omega), if_pos (by omega), Nat.add_sub_cancel_left] at hx
    · intro h
      refine Flat.ext_byte ?_ ?_ fun x => ?_
      · rw [chunked, hlen, Flat.copyChunks_mul (by decide), Flat.readable_copyElems,
          readable_upwards]
      · rw [chunked, hlen, Flat.copyChunks_mul (by decide), Flat.writable_copyElems,
          writable_upwards]
      · rw [hchunk, helem]
        by_cases hx : (r.gpr 7).toNat ≤ x ∧ x < (r.gpr 7).toNat + i * size
        · rw [if_pos hx, if_pos hx]
          exact h rfl _ (by omega)
        · rw [if_neg hx, if_neg hx]

/-- There is one first element that is denied. -/
theorem denied_unique {i k : ℕ} (hi : op.Granted size i r f) (hi' : ¬op.Granted size (i + 1) r f)
    (hk : op.Granted size k r f) (hk' : ¬op.Granted size (k + 1) r f) : i = k := by
  rcases Nat.lt_trichotomy i k with h | h | h
  · exact absurd (hk.of_le h) hi'
  · exact h
  · exact absurd (hi.of_le h) hk'

/-- **A step in chunks.** -/
theorem ChunkEnd.stepElems_iff {x : Except StepExecError Bool} (hl : f.Low)
    (hsize : size ∈ [1, 2, 4, 8]) (hc : op.Chunks size r)
    (h : ChunkEnd op size (stepElems r) 0 r f x r' f') :
    (op.StepElems size (stepElems r) r f x r' f' ↔ op.ChunksAgree size r f) ∧
      (x = .ok true → op.ChunksAgree size r f) := by
  have hpos : 0 < size := by
    simp only [List.mem_cons, List.not_mem_nil, or_false] at hsize
    omega
  have hn := hc.2.1
  cases h with
  | all hg =>
    have hagree : op.ChunksAgree size r f := fun i hi _ hn' => absurd (hg.of_le hi) hn'
    refine ⟨iff_of_true ⟨.ok (), (forward_iff hl hc.1).mpr ⟨hg, ?_⟩, ?_⟩ hagree, fun _ => hagree⟩
    · rw [chunked_of_granted hl hpos hc hg]
    · rw [Nat.zero_add, decide_eq_true (by omega)]
      rfl
  | denied i e x hi hmod hg hn' he hx =>
    have hperm : (op.chunked size i r f).readable = f.readable ∧
        (op.chunked size i r f).writable = f.writable := by
      cases op with
      | stos => exact ⟨rfl, rfl⟩
      | movs =>
        rw [chunked, Flat.copyChunks, Flat.readable_put, Flat.writable_put]
        exact ⟨Flat.readable_copyElems .., Flat.writable_copyElems ..⟩
    have hfail := (failsAt_of_denied hl hc.1 hg hperm.1 hperm.2 he).of_lt hi
    refine ⟨?_, fun hx' => ?_⟩
    · have hmem : op.StepElems size (stepElems r) r f x (op.advance size i r) (op.chunked size i r f) ↔
          op.chunked size i r f = op.upwards size i r f := by
        constructor
        · rintro ⟨y, hy, -⟩
          have := hy.symm.trans hfail
          exact congrArg (fun p => p.2.2) this
        · intro heq
          rw [heq]
          exact ⟨.error e, hfail, hx⟩
      rw [hmem, chunked_eq_upwards_iff hsize hmod]
      constructor
      · intro h k hk hgk hnk
        obtain rfl := denied_unique hg hn' hgk hnk
        exact ⟨hmod, h⟩
      · exact fun h => (h i hi hg hn').2
    · rw [hx'] at hx
      cases hx
  | dropped i k f' hi hmod hg hn' hk =>
    have hnot : ¬op.ChunksAgree size r f := fun h => hmod (h i hi hg hn').1
    refine ⟨iff_of_false ?_ hnot, fun hx => absurd hx (by simp)⟩
    rintro ⟨y, -, hx⟩
    cases y with
    | ok u => cases hx
    | error e => cases hx

/-! ### Whole runs -/

/-- A run ends as its elements do. -/
def EndsAsElements (op : RepOp) (size : ℕ) (r : RegFile) (f : Flat) (x : Except StepExecError Unit)
    (r' : RegFile) (f' : Flat) : Prop :=
  ∃ y, iterateOk (op.elem size) (r.gpr 1).toNat (r, f) = (y, (r', f')) ∧
    x.mapError StepExecError.fault = y.mapError some

/-- Every step in chunks does its elements. -/
def RunAgrees (op : RepOp) (size : ℕ) (r : RegFile) (f : Flat) : Prop :=
  ∀ k s, iterateOk (op.elem size) (k * REP_BULK_MAX) (r, f) = (.ok (), s) →
    op.Chunks size s.1 → op.ChunksAgree size s.1 s.2

theorem not_chunks_of_rcx (h : r.gpr 1 = 0) : ¬op.Chunks size r := by
  intro hc
  have hn := hc.2.1
  have h0 : (0 : BitVec 64).toNat = 0 := rfl
  rw [stepElems, h, h0] at hn
  omega

/-- No step after the last element. -/
theorem not_chunks_of_le {s s' : RegFile × Flat} (h : iterateOk (op.elem size) n s = (.ok (), s'))
    (hn : (s.1.gpr 1).toNat ≤ n) : ¬op.Chunks size s'.1 := by
  refine not_chunks_of_rcx ?_
  rw [iterateOk_rcx h, saturatingSub, Nat.sub_eq_zero_of_le hn]
  rfl

theorem toNat_rcx {s s' : RegFile × Flat} (h : iterateOk (op.elem size) n s = (.ok (), s')) :
    (s'.1.gpr 1).toNat = (s.1.gpr 1).toNat - n := by
  rw [iterateOk_rcx h, saturatingSub, BitVec.toNat_ofNat, Nat.mod_eq_of_lt]
  exact Nat.lt_of_le_of_lt (Nat.sub_le ..) (s.1.gpr 1).isLt

/-- What is agreed on of a run, after its first step. -/
theorem runAgrees_iff_of_step {r₁ : RegFile} (hstep : op.Chunks size r → op.ChunksAgree size r f)
    (h : iterateOk (op.elem size) (stepElems r) (r, f) = (.ok (), (r₁, f'))) :
    op.RunAgrees size r f ↔ op.RunAgrees size r₁ f' := by
  have hle : stepElems r ≤ (r.gpr 1).toNat := Nat.min_le_left ..
  rcases Nat.lt_or_ge (r.gpr 1).toNat REP_BULK_MAX with hlt | hge
  · -- the first step is the last
    have hn : stepElems r = (r.gpr 1).toNat := Nat.min_eq_left hlt.le
    have hrcx : (r₁.gpr 1).toNat = 0 := by
      rw [toNat_rcx h, hn, Nat.sub_self]
    refine iff_of_true (fun k s hs hc => ?_) fun k s hs hc => absurd hc (not_chunks_of_le hs ?_)
    · cases k with
      | zero =>
        rw [Nat.zero_mul] at hs
        cases hs
        exact hstep hc
      | succ k =>
        refine absurd hc (not_chunks_of_le hs ?_)
        rw [Nat.succ_mul]
        show (r.gpr 1).toNat ≤ _
        omega
    · show (r₁.gpr 1).toNat ≤ _
      omega
  · have hn : stepElems r = REP_BULK_MAX := Nat.min_eq_right hge
    rw [hn] at h
    constructor
    · intro ha k s hs hc
      refine ha (k + 1) s ?_ hc
      rw [Nat.succ_mul, Nat.add_comm, iterateOk_add h]
      exact hs
    · intro ha k s hs hc
      cases k with
      | zero =>
        rw [Nat.zero_mul] at hs
        cases hs
        exact hstep hc
      | succ k =>
        rw [Nat.succ_mul, Nat.add_comm, iterateOk_add h] at hs
        exact ha k s hs hc

/-- How a run ends, after its first step. -/
theorem endsAsElements_iff_of_step {r₁ : RegFile} {g : Flat} {x : Except StepExecError Unit}
    (h : iterateOk (op.elem size) (stepElems r) (r, f) = (.ok (), (r₁, g))) :
    op.EndsAsElements size r f x r' f' ↔ op.EndsAsElements size r₁ g x r' f' := by
  have hle : stepElems r ≤ (r.gpr 1).toNat := Nat.min_le_left ..
  have hrcx := toNat_rcx h
  rw [EndsAsElements, EndsAsElements, hrcx, ← iterateOk_add h, Nat.add_sub_of_le hle]

/-- What is agreed on of a run whose first step has an element that is denied. -/
theorem runAgrees_iff_of_error {e : ElemFault} {s : RegFile × Flat}
    (h : iterateOk (op.elem size) (stepElems r) (r, f) = (.error e, s)) :
    op.RunAgrees size r f ↔ (op.Chunks size r → op.ChunksAgree size r f) := by
  have hle : stepElems r ≤ REP_BULK_MAX := Nat.min_le_right ..
  constructor
  · exact fun ha => ha 0 (r, f) (by rw [Nat.zero_mul]; rfl)
  · intro hstep k s' hs hc
    cases k with
    | zero =>
      rw [Nat.zero_mul] at hs
      cases hs
      exact hstep hc
    | succ k =>
      have hk : stepElems r ≤ (k + 1) * REP_BULK_MAX := by
        rw [Nat.succ_mul]
        omega
      obtain ⟨s₁, hs₁⟩ := iterateOk_of_le hs hk
      cases hs₁.symm.trans h

/-- How a run ends whose first step has an element that is denied. -/
theorem endsAsElements_iff_of_error {e : ElemFault} {s : RegFile × Flat}
    {x : Except StepExecError Bool} {v : Except StepExecError Unit} (hv : v = x.map fun _ => ())
    (h : iterateOk (op.elem size) (stepElems r) (r, f) = (.error e, s)) :
    op.EndsAsElements size r f v r' f' ↔ op.StepElems size (stepElems r) r f x r' f' := by
  have hle : stepElems r ≤ (r.gpr 1).toNat := Nat.min_le_left ..
  have hall := iterateOk_error_add h ((r.gpr 1).toNat - stepElems r)
  rw [Nat.add_sub_of_le hle] at hall
  have hsame : v.mapError StepExecError.fault = .error (some e) ↔
      x.mapError StepExecError.fault = .error (some e) := by
    rw [hv]
    cases x with
    | ok b => exact iff_of_false (fun h => by cases h) fun h => by cases h
    | error e' =>
      exact ⟨fun h => congrArg _ (Except.error.inj h), fun h => congrArg _ (Except.error.inj h)⟩
  rw [EndsAsElements, StepElems, hall, h]
  constructor
  · rintro ⟨y, hy, hx⟩
    cases hy
    exact ⟨_, rfl, hsame.mp hx⟩
  · rintro ⟨y, hy, hx⟩
    cases hy
    exact ⟨_, rfl, hsame.mpr hx⟩

theorem exists_error_of_not_granted (hl : f.Low) (hdf : r.flag DF = false)
    (h : ¬op.Granted size n r f) :
    ∃ e s, iterateOk (op.elem size) n (r, f) = (.error e, s) := by
  rcases hn : iterateOk (op.elem size) n (r, f) with ⟨e | u, s⟩
  · exact ⟨e, s, rfl⟩
  · exact absurd ((forward_iff hl hdf).mp hn).1 h

theorem ChunkEnd.not_granted {x : Except StepExecError Bool} (hn : 0 < n) (hx : x ≠ .ok true)
    (h : ChunkEnd op size n 0 r f x r' f') : ¬op.Granted size n r f := by
  cases h with
  | all hg =>
    rw [Nat.zero_add, decide_eq_true hn] at hx
    exact absurd rfl hx
  | denied i e x hi hmod hg hn => exact fun hall => hn (hall.of_le hi)
  | dropped i k f' hi hmod hg hn => exact fun hall => hn (hall.of_le hi)

/-- A step in chunks that leaves the instruction has elements to go. -/
theorem ChunkEnd.rcx_ne_zero (hc : op.Chunks size r)
    (h : ChunkEnd op size (stepElems r) 0 r f (.ok false) r' f') : r'.gpr 1 ≠ 0 := by
  have hn := hc.2.1
  have hle : stepElems r ≤ (r.gpr 1).toNat := Nat.min_le_left ..
  generalize hx : (Except.ok false : Except StepExecError Bool) = x at h
  cases h with
  | all hg =>
    rw [Nat.zero_add, decide_eq_true (by omega)] at hx
    cases hx
  | denied i e x hi hmod hg hn' he hx' =>
    rw [← hx] at hx'
    cases hx'
  | dropped i k f' hi hmod hg hn' hk =>
    rw [advance_rcx, saturatingSub]
    intro h0
    have := congrArg BitVec.toNat h0
    have hlt := (r.gpr 1).isLt
    rw [BitVec.toNat_ofNat, Nat.mod_eq_of_lt (by omega)] at this
    have hz : (0 : BitVec 64).toNat = 0 := rfl
    omega

/-- **A step that is the last**, with elements to go. -/
theorem endsAsElements_iff_of_last {x : Except StepExecError Bool} {v : Except StepExecError Unit}
    (h : Inv env m) (hsize : size ∈ [1, 2, 4, 8]) {bulk : Bool} (hrcx : r.gpr 1 ≠ 0)
    (hr : (op.exec bulk size).run (device env) r m = some ((x, r'), m')) (hx : x ≠ .ok true)
    (hv : v = x.map fun _ => ()) :
    op.EndsAsElements size r m.flat v r' m'.flat ↔ op.RunAgrees size r m.flat := by
  obtain ⟨-, ⟨⟨y, hy, hxy⟩, hnot⟩ | ⟨hc, hend⟩⟩ := run_exec h hsize hrcx hr
  · -- elements one by one
    cases y with
    | ok u =>
      cases x with
      | ok b => exact absurd hxy fun hb => hx (congrArg Except.ok (Except.ok.inj hb))
      | error e => cases hxy
    | error e =>
      rw [endsAsElements_iff_of_error hv hy, runAgrees_iff_of_error hy]
      exact iff_of_true ⟨_, hy, hxy⟩ fun hc => absurd hc (hnot.resolve_left hx)
  · have hpos : 0 < stepElems r := Nat.lt_of_succ_lt hc.2.1
    obtain ⟨e, s, he⟩ := exists_error_of_not_granted h.low hc.1 (hend.not_granted hpos hx)
    rw [endsAsElements_iff_of_error hv he, runAgrees_iff_of_error he,
      (hend.stepElems_iff h.low hsize hc).1]
    exact ⟨fun ha _ => ha, fun ha => ha hc⟩

/-- **A step that stays.** -/
theorem step_of_stay (h : Inv env m) (hsize : size ∈ [1, 2, 4, 8]) {bulk : Bool}
    (hr : (op.exec bulk size).run (device env) r m = some ((.ok true, r'), m')) : Inv env m' ∧
      iterateOk (op.elem size) (stepElems r) (r, m.flat) = (.ok (), (r', m'.flat)) ∧
      (op.Chunks size r → op.ChunksAgree size r m.flat) := by
  have hrcx : r.gpr 1 ≠ 0 := by
    intro h0
    cases (run_exec_zero h0 hr).1
  have hstep : ∀ {g : RegFile × Flat},
      op.StepElems size (stepElems r) r m.flat (.ok true) g.1 g.2 →
        iterateOk (op.elem size) (stepElems r) (r, m.flat) = (.ok (), g) := by
    rintro g ⟨y, hy, hx⟩
    cases y with
    | ok u => exact hy
    | error e => cases hx
  obtain ⟨hinv, ⟨hel, -⟩ | ⟨hc, hend⟩⟩ := run_exec h hsize hrcx hr
  · refine ⟨hinv, hstep (g := (r', m'.flat)) hel, fun hc i hi _ hn => ?_⟩
    exact absurd ((((forward_iff h.low hc.1).mp (hstep (g := (r', m'.flat)) hel)).1).of_le hi) hn
  · obtain ⟨hiff, hagree⟩ := hend.stepElems_iff h.low hsize hc
    exact ⟨hinv, hstep (g := (r', m'.flat)) (hiff.mpr (hagree rfl)), fun _ => hagree rfl⟩

/-- **When a run ends as its elements do.** -/
theorem endsAsElements_iff (h : Inv env m) (hsize : size ∈ [1, 2, 4, 8]) {bulk : Bool}
    {v : Except StepExecError Unit} (hr : RepRuns env (op.exec bulk size) r m v r' m') :
    op.EndsAsElements size r m.flat v r' m'.flat ↔ op.RunAgrees size r m.flat := by
  induction hr with
  | @left r r' m m' hrun =>
    by_cases hrcx : r.gpr 1 = 0
    · obtain ⟨-, rfl, rfl⟩ := run_exec_zero hrcx hrun
      have h0 : (r'.gpr 1).toNat = 0 := by
        rw [hrcx]
        rfl
      refine iff_of_true ⟨.ok (), by rw [h0]; rfl, rfl⟩ fun k s hs hc => ?_
      refine absurd hc (not_chunks_of_le hs ?_)
      show (r'.gpr 1).toNat ≤ _
      omega
    · exact endsAsElements_iff_of_last h hsize hrcx hrun (by simp) rfl
  | @faulted r r' m m' e hrun =>
    have hrcx : r.gpr 1 ≠ 0 := by
      intro h0
      cases (run_exec_zero h0 hrun).1
    exact endsAsElements_iff_of_last h hsize hrcx hrun (by simp) rfl
  | stay hrun _ ih =>
    obtain ⟨hinv, hel, hagree⟩ := step_of_stay h hsize hrun
    rw [endsAsElements_iff_of_step hel, runAgrees_iff_of_step hagree hel]
    exact ih hinv

/-- Nothing is to be agreed on where no element is denied. -/
theorem runAgrees_of_granted (hle : (r.gpr 1).toNat ≤ REP_BULK_MAX)
    (hg : op.Granted size (r.gpr 1).toNat r f) : op.RunAgrees size r f := by
  intro k s hs hc
  cases k with
  | zero =>
    rw [Nat.zero_mul] at hs
    cases hs
    have hn : stepElems r = (r.gpr 1).toNat := Nat.min_eq_left hle
    intro i hi _ hni
    have hi : i < stepElems r := hi
    exact absurd (hg.of_le (by omega)) hni
  | succ k =>
    refine absurd hc (not_chunks_of_le hs ?_)
    rw [Nat.succ_mul]
    exact hle.trans (Nat.le_add_left ..)

/-- **A run that leaves the instruction with no element to go** has done its elements. -/
theorem elements_of_left (h : Inv env m) (hsize : size ∈ [1, 2, 4, 8]) {bulk : Bool}
    {v : Except StepExecError Unit} (hr : RepRuns env (op.exec bulk size) r m v r' m')
    (hv : v = .ok ()) (hrcx : r'.gpr 1 = 0) :
    iterateOk (op.elem size) (r.gpr 1).toNat (r, m.flat) = (.ok (), (r', m'.flat)) := by
  induction hr with
  | @left r r' m m' hrun =>
    by_cases h0 : r.gpr 1 = 0
    · obtain ⟨-, rfl, rfl⟩ := run_exec_zero h0 hrun
      rw [h0]
      rfl
    · -- a step that leaves the instruction has elements to go
      obtain ⟨-, ⟨⟨y, -, hxy⟩, -⟩ | ⟨hc, hend⟩⟩ := run_exec h hsize h0 hrun
      · cases y with
        | ok u => cases hxy
        | error e => cases hxy
      · exact absurd hrcx (hend.rcx_ne_zero hc)
  | faulted hrun => cases hv
  | @stay r r₁ r' m m₁ m' x hrun _ ih =>
    obtain ⟨hinv, hel, -⟩ := step_of_stay h hsize hrun
    have hle : stepElems r ≤ (r.gpr 1).toNat := Nat.min_le_left ..
    have hrest := ih hinv hv hrcx
    rw [toNat_rcx hel, ← iterateOk_add hel, Nat.add_sub_of_le hle] at hrest
    exact hrest

end RepOp

/-- Pages that may be written, up to `0x30000`. -/
def somePages : GuestMemory :=
  runAll .fourK (new .roomy)
    [.virtualAlloc 0x20000 0x1000 (memReserve + memCommit) Protect.pageReadwrite]

theorem reachable_somePages : Reachable .fourK AnyCall somePages :=
  (reachable_new _).runAll _ (allMeet_anyCall _ _) (by decide +kernel)

/-- A run of the helper in two steps. -/
theorem exists_repRuns {step : Exec Bool} (h : ((step.run (device env) r m).bind fun v =>
      if v.1.1.toOption = some true then
        (step.run (device env) v.1.2 v.2).map fun v => v.1.1.toOption
      else none) = some (some false)) :
    ∃ r' m', RepRuns env step r m (.ok ()) r' m' := by
  obtain ⟨⟨⟨x₁, r₁⟩, m₁⟩, h₁, hrest⟩ := Option.bind_eq_some_iff.mp h
  split_ifs at hrest with hx₁
  obtain ⟨⟨⟨x₂, r₂⟩, m₂⟩, h₂, hx₂⟩ := Option.map_eq_some_iff.mp hrest
  have hstay : x₁ = .ok true := by
    cases x₁ with
    | ok b => exact congrArg _ (Option.some.inj hx₁)
    | error e => cases hx₁
  have hleft : x₂ = .ok false := by
    cases x₂ with
    | ok b => exact congrArg _ (Option.some.inj hx₂)
    | error e => cases hx₂
  subst hstay hleft
  exact ⟨_, _, .stay h₁ (.left h₂)⟩

end Wie
