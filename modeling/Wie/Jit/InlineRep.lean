import Wie.Cpu.StringBulk

/-!
# Inline REP MOVS and REP STOS

For short ranges a compiled block does REP MOVS and REP STOS itself, through spans of host memory: at
most four vectors of 16 bytes, as many as fit into the range. All other cases go to the helper, which
is run until the instruction is left.

Bytes past the last vector are not touched, and vectors are moved as a whole, whatever the size of
the elements. The length is a product modulo `2 ^ 64`.

## Main definitions

* `inlineRep` — what the code does
* `InlineAgrees` — when that is what the helper does

## Main results

* `inlineRep_same_iff` — inline code and helper
-/

namespace Wie

open Cmd GuestMemory Rflags

/-! ### The code -/

/-- The same bytes in all lanes. -/
def splat (lanes : ℕ) (bytes : List UInt8) : List UInt8 := (List.replicate lanes bytes).flatten

/-- `stos_splat_pattern`. -/
def stosSplatPattern (rax : BitVec 64) : ℕ → Option (List UInt8)
  | 1 => some (splat 16 (toLe 1 (rax &&& 0xff).toNat))
  | 2 => some (splat 8 (toLe 2 (rax &&& 0xffff).toNat))
  | 4 => some (splat 4 (toLe 4 (rax &&& 0xffffffff).toNat))
  | 8 => some (splat 2 (toLe 8 rax.toNat))
  | _ => none

/-- Chunks of `emit_inline_copy_chunks`, the first of the four; `none` is the end of the process. -/
def emitInlineCopyChunks (env : HostEnv) (srcHost dstHost byteLen : ℕ) (fill : Option (List UInt8)) :
    ℕ → GuestMemory → Option GuestMemory
  | 0, m => some m
  | chunk + 1, m => do
    let m ← emitInlineCopyChunks env srcHost dstHost byteLen fill chunk m
    let off := chunk * 16
    if off + 16 ≤ byteLen then do
      let v ← match fill with
        | some pat => some pat
        | none => m.backend.host.load env (srcHost + off) 16
      m.pokeHost env (dstHost + off) v
    else some m

/-- How the code ends. -/
inductive InlineEnd
  /-- The helper is called. -/
  | slow (m : GuestMemory)
  /-- The block goes on after the instruction. -/
  | next (r : RegFile) (m : GuestMemory)
  /-- The process ends. -/
  | crash

/-- `try_lower_inline_rep`, for a size that it takes. -/
def inlineRep (env : HostEnv) (op : RepOp) (size : ℕ) (r : RegFile) (m : GuestMemory) : InlineEnd :=
  let byteLen := r.gpr 1 * .ofNat 64 size
  if r.rflags &&& DF = 0 ∧ 16 ≤ byteLen.toNat ∧ byteLen.toNat ≤ 64 then
    match m.hostSpan (r.gpr 7).toNat byteLen.toNat true with
    | (none, m) => .slow m
    | (some dstHost, m) =>
      match op with
      | .movs =>
        match m.hostSpan (r.gpr 6).toNat byteLen.toNat false with
        | (none, m) => .slow m
        | (some srcHost, m) =>
          match emitInlineCopyChunks env srcHost dstHost byteLen.toNat none 4 m with
          | none => .crash
          | some m => .next (((r.setGpr 6 (r.gpr 6 + byteLen)).setGpr 7 (r.gpr 7 + byteLen)).setGpr
              1 0) m
      | .stos =>
        match stosSplatPattern (r.gpr 0) size with
        | none => .slow m
        | some pat =>
          match emitInlineCopyChunks env dstHost dstHost byteLen.toNat (some pat) 4 m with
          | none => .crash
          | some m => .next ((r.setGpr 7 (r.gpr 7 + byteLen)).setGpr 1 0) m
  else .slow m

/-! ### The chunks -/

variable {env : HostEnv} {m m₁ m₂ : GuestMemory} {r r₁ r₂ : RegFile} {size : ℕ} {op : RepOp}
  {src dst srcHost dstHost len k : ℕ} {pat : List UInt8}

/-- How many of `k` chunks fit. -/
def chunksOf (len k : ℕ) : ℕ := min k (len / 16)

theorem chunksOf_succ (len k : ℕ) :
    chunksOf len (k + 1) = if k * 16 + 16 ≤ len then chunksOf len k + 1 else chunksOf len k := by
  rw [chunksOf, chunksOf]
  split_ifs <;> omega

/-- A run of chunks keeps what a span says of the ranges. -/
structure ChunksDone (env : HostEnv) (m m₁ : GuestMemory) (f : Flat) : Prop where
  /-- The invariant. -/
  inv : Inv env m₁
  /-- Where the bytes are. -/
  hostAddr : ∀ a, m₁.backend.hostAddr a = m.backend.hostAddr a
  /-- What is granted. -/
  granted : ∀ kind a n, m₁.Granted kind a n ↔ m.Granted kind a n
  /-- The memory. -/
  flat : m₁.flat = f

theorem ChunksDone.refl (h : Inv env m) : ChunksDone env m m m.flat :=
  ⟨h, fun _ => rfl, fun _ _ _ => Iff.rfl, rfl⟩

/-- One more chunk. -/
theorem ChunksDone.poke {f : Flat} {off : ℕ} {v : List UInt8} (h : ChunksDone env m m₁ f)
    (hv : v.length = 16) (hoff : off + 16 ≤ len) (hg : m.Granted .write dst len)
    (hdst : ∀ i < len, m.backend.hostAddr (dst + i) = some (dstHost + i))
    (hp : m₁.pokeHost env (dstHost + off) v = some m₂) :
    ChunksDone env m m₂ (f.put (dst + off) v) := by
  have hw : Wrote env m₁ (dst + off) v m₂ := by
    refine h.inv.wrote_pokeHost (by omega) ((h.granted ..).mpr fun x h1 h2 => ?_)
      (fun i hi => ?_) hp
    · exact hg x (by omega) (by omega)
    · rw [h.hostAddr, Nat.add_assoc, hdst (off + i) (by omega), Nat.add_assoc]
  refine ⟨hw.inv h.inv, fun a => ?_, fun kind a n => ?_, by rw [hw.flat, h.flat]⟩
  · rw [ArenaSet.hostAddr_congr hw.backend.arenas, h.hostAddr]
  · have ht := hw.table
    rw [Granted, ht]
    exact h.granted kind a n

theorem length_splat (lanes : ℕ) (bytes : List UInt8) :
    (splat lanes bytes).length = lanes * bytes.length := by
  rw [splat, List.length_flatten, List.map_replicate, List.sum_replicate_nat]

/-- **The chunks of STOS.** -/
theorem chunksDone_fill (h : Inv env m) (hpat : pat.length = 16) (hg : m.Granted .write dst len)
    (hdst : ∀ i < len, m.backend.hostAddr (dst + i) = some (dstHost + i))
    (hc : emitInlineCopyChunks env srcHost dstHost len (some pat) k m = some m₁) :
    ChunksDone env m m₁ (m.flat.put dst (splat (chunksOf len k) pat)) := by
  induction k generalizing m₁ with
  | zero =>
    cases hc
    have hnil : splat (chunksOf len 0) pat = [] := by
      rw [chunksOf, Nat.zero_min]
      rfl
    rw [hnil, Flat.put_nil]
    exact .refl h
  | succ k ih =>
    obtain ⟨m₂, h₂, hrest⟩ := Option.bind_eq_some_iff.mp hc
    have hdone := ih h₂
    rw [chunksOf_succ]
    by_cases hk : k * 16 + 16 ≤ len
    · rw [if_pos hk] at hrest ⊢
      have hfits : chunksOf len k = k := by
        rw [chunksOf]
        omega
      have hpoke := hdone.poke hpat hk hg hdst hrest
      have hput := m.flat.put_append dst (splat k pat) pat
      rw [length_splat, hpat] at hput
      rw [hfits] at hpoke ⊢
      rw [hput] at hpoke
      have hsucc : splat (k + 1) pat = splat k pat ++ pat := by
        rw [splat, List.replicate_succ', List.flatten_append, List.flatten_singleton, splat]
      rw [hsucc]
      exact hpoke
    · rw [if_neg hk] at hrest ⊢
      cases hrest
      exact hdone

/-- **The chunks of MOVS.** -/
theorem chunksDone_copy (h : Inv env m) (hg : m.Granted .write dst len)
    (hdst : ∀ i < len, m.backend.hostAddr (dst + i) = some (dstHost + i))
    (hsrc : ∀ i < len, m.backend.hostAddr (src + i) = some (srcHost + i))
    (hc : emitInlineCopyChunks env srcHost dstHost len none k m = some m₁) :
    ChunksDone env m m₁ (m.flat.copyElems 16 src dst (chunksOf len k)) := by
  induction k generalizing m₁ with
  | zero =>
    cases hc
    rw [chunksOf, Nat.zero_min]
    exact .refl h
  | succ k ih =>
    obtain ⟨m₂, h₂, hrest⟩ := Option.bind_eq_some_iff.mp hc
    have hdone := ih h₂
    rw [chunksOf_succ]
    by_cases hk : k * 16 + 16 ≤ len
    · rw [if_pos hk] at hrest ⊢
      obtain ⟨v, hv, hpoke⟩ := Option.bind_eq_some_iff.mp hrest
      have hfits : chunksOf len k = k := by
        rw [chunksOf]
        omega
      have hload := load_span (a := src + k * 16) (by decide) (fun i hi => by
        rw [hdone.hostAddr, Nat.add_assoc, hsrc (k * 16 + i) (by omega), Nat.add_assoc]) hv
      have hlen : v.length = 16 := by rw [hload, Flat.length_bytes]
      have hpoke := hdone.poke hlen hk hg hdst hpoke
      rw [hload, hdone.flat, hfits] at hpoke
      rw [hfits]
      exact hpoke
    · rw [if_neg hk] at hrest ⊢
      cases hrest
      exact hdone

/-! ### The pattern -/

theorem splat_fillPattern (lanes n size : ℕ) (v : BitVec 64) :
    splat lanes (fillPattern n size v) = fillPattern (lanes * n) size v := by
  induction lanes with
  | zero =>
    rw [Nat.zero_mul]
    rfl
  | succ lanes ih =>
    have hsucc : splat (lanes + 1) (fillPattern n size v) =
        splat lanes (fillPattern n size v) ++ fillPattern n size v := by
      rw [splat, List.replicate_succ', List.flatten_append, List.flatten_singleton, splat]
    rw [hsucc, ih, Nat.succ_mul, RepOp.fillPattern_add]

/-- The vector of STOS is the pattern of its elements. -/
theorem stosSplatPattern_eq (hsize : size ∈ [1, 2, 4, 8]) (rax : BitVec 64) :
    stosSplatPattern rax size = some (fillPattern (16 / size) size (rax &&& sizeMask size)) := by
  simp only [List.mem_cons, List.not_mem_nil, or_false] at hsize
  rcases hsize with rfl | rfl | rfl | rfl
  · rfl
  · rfl
  · rfl
  · rw [and_sizeMask_eight]
    rfl

/-- The memory after the inline code. -/
def inlineMemory (op : RepOp) (size len : ℕ) (r : RegFile) (f : Flat) : Flat :=
  match op with
  | .stos => f.put (r.gpr 7).toNat
      (fillPattern (len / 16 * (16 / size)) size (r.gpr 0 &&& sizeMask size))
  | .movs => f.copyElems 16 (r.gpr 6).toNat (r.gpr 7).toNat (len / 16)

/-- The registers after the inline code. -/
def inlineRegs (op : RepOp) (byteLen : BitVec 64) (r : RegFile) : RegFile :=
  match op with
  | .stos => (r.setGpr 7 (r.gpr 7 + byteLen)).setGpr 1 0
  | .movs => ((r.setGpr 6 (r.gpr 6 + byteLen)).setGpr 7 (r.gpr 7 + byteLen)).setGpr 1 0

/-- **What the inline code does** when it is taken. -/
theorem inlineRep_next (h : Inv env m) (hsize : size ∈ [1, 2, 4, 8])
    (hn : inlineRep env op size r m = .next r₁ m₁) :
    let byteLen := r.gpr 1 * .ofNat 64 size
    r.flag DF = false ∧ 16 ≤ byteLen.toNat ∧ byteLen.toNat ≤ 64 ∧
      m.Granted .write (r.gpr 7).toNat byteLen.toNat ∧
      (op = .movs → m.Granted .read (r.gpr 6).toNat byteLen.toNat) ∧
      r₁ = inlineRegs op byteLen r ∧ m₁.flat = inlineMemory op size byteLen.toNat r m.flat := by
  intro byteLen
  rw [inlineRep] at hn
  by_cases hc : r.rflags &&& DF = 0 ∧ 16 ≤ byteLen.toNat ∧ byteLen.toNat ≤ 64
  · rw [if_pos hc] at hn
    obtain ⟨hdf, hge, hle⟩ := hc
    have hflag : r.flag DF = false := by
      rw [RegFile.flag, Rflags.has, hdf]
      rfl
    have hfits : chunksOf byteLen.toNat 4 = byteLen.toNat / 16 := by
      rw [chunksOf]
      omega
    obtain ⟨hsame, hspan⟩ := h.hostSpan_spec (r.gpr 7).toNat byteLen.toNat true
    refine ⟨hflag, hge, hle, ?_⟩
    cases hs : m.hostSpan (r.gpr 7).toNat byteLen.toNat true with
    | mk p m₂ =>
      rw [hs] at hn hsame hspan
      cases p with
      | none => cases hn
      | some dstHost =>
        obtain ⟨-, hg, hdst⟩ := hspan dstHost rfl
        have hg : m.Granted .write (r.gpr 7).toNat byteLen.toNat := hg
        have hinv := hsame.inv h
        rw [← hsame.backend] at hdst
        refine ⟨hg, ?_⟩
        cases op with
        | stos =>
          simp only [stosSplatPattern_eq hsize] at hn
          split at hn
          · cases hn
          · rename_i m₃ he
            cases hn
            have hlen : (fillPattern (16 / size) size (r.gpr 0 &&& sizeMask size)).length = 16 := by
              rw [RepOp.length_fillPattern]
              simp only [List.mem_cons, List.not_mem_nil, or_false] at hsize
              rcases hsize with rfl | rfl | rfl | rfl <;> rfl
            have hdone := chunksDone_fill hinv hlen ((hsame.granted ..).mpr hg) hdst he
            refine ⟨RepOp.not_movs, rfl, ?_⟩
            rw [hdone.flat, hsame.flat, hfits, splat_fillPattern, inlineMemory]
        | movs =>
          obtain ⟨hsame₂, hspan₂⟩ := hinv.hostSpan_spec (r.gpr 6).toNat byteLen.toNat false
          simp only [] at hn
          cases hs₂ : m₂.hostSpan (r.gpr 6).toNat byteLen.toNat false with
          | mk p m₃ =>
            rw [hs₂] at hn hsame₂ hspan₂
            cases p with
            | none => cases hn
            | some srcHost =>
              obtain ⟨-, hg₂, hsrc⟩ := hspan₂ srcHost rfl
              have hg₂ : m.Granted .read (r.gpr 6).toNat byteLen.toNat :=
                (hsame.granted ..).mp hg₂
              have hboth := hsame.trans hsame₂
              rw [← hsame₂.backend] at hsrc hdst
              simp only [] at hn
              split at hn
              · cases hn
              · rename_i m₄ he
                cases hn
                have hdone := chunksDone_copy (hsame₂.inv hinv) ((hboth.granted ..).mpr hg) hdst
                  hsrc he
                refine ⟨fun _ => hg₂, rfl, ?_⟩
                rw [hdone.flat, hboth.flat, hfits, inlineMemory]
  · rw [if_neg hc] at hn
    cases hn

/-! ### Inline code and helper -/

/-- The same end of the instruction: the exit is the next one, and memory, RCX, RSI and RDI are
equal. -/
structure SameExit (r₁ : RegFile) (f₁ : Flat) (x : Except StepExecError Unit) (r₂ : RegFile)
    (f₂ : Flat) : Prop where
  /-- The helper leaves the instruction without a fault. -/
  exit : x = .ok ()
  /-- The counts are equal. -/
  rcx : r₁.gpr 1 = r₂.gpr 1
  /-- The sources are equal. -/
  rsi : r₁.gpr 6 = r₂.gpr 6
  /-- The targets are equal. -/
  rdi : r₁.gpr 7 = r₂.gpr 7
  /-- The memories are equal. -/
  flat : f₁ = f₂

/-- When the inline code is right: the length does not wrap around, the bytes past the last vector
are already there, and no vector reads bytes that elements would have written before. -/
def InlineAgrees (op : RepOp) (size : ℕ) (r : RegFile) (f : Flat) : Prop :=
  let count := (r.gpr 1).toNat
  let len := count * size
  let src := (r.gpr 6).toNat
  let dst := (r.gpr 7).toNat
  len < 2 ^ 64 ∧
    match op with
    | .stos => f.bytes (dst + len / 16 * 16) (len % 16) =
        fillPattern (count - len / 16 * (16 / size)) size (r.gpr 0 &&& sizeMask size)
    | .movs =>
      (∀ j < len / 16 * 16,
        f.byte (src + origin 16 (dst - src) j) = f.byte (src + origin size (dst - src) j)) ∧
      ∀ j, len / 16 * 16 ≤ j → j < len → f.byte (dst + j) = f.byte (src + origin size (dst - src) j)

theorem inlineMemory_eq_iff (hsize : size ∈ [1, 2, 4, 8]) {f : Flat}
    (hlt : (r.gpr 1).toNat * size < 2 ^ 64) :
    inlineMemory op size ((r.gpr 1).toNat * size) r f = op.upwards size (r.gpr 1).toNat r f ↔
      InlineAgrees op size r f := by
  have hpos : 0 < size := by
    simp only [List.mem_cons, List.not_mem_nil, or_false] at hsize
    omega
  have hvector : 16 / size * size = 16 := by
    simp only [List.mem_cons, List.not_mem_nil, or_false] at hsize
    rcases hsize with rfl | rfl | rfl | rfl <;> rfl
  rw [InlineAgrees.eq_def]
  refine Iff.trans ?_ (and_iff_right hlt).symm
  generalize hlen : (r.gpr 1).toNat * size = len
  cases op with
  | stos =>
    -- the elements of the vectors, and the others
    have hfirst : len / 16 * (16 / size) * size = len / 16 * 16 := by
      rw [Nat.mul_assoc, hvector]
    have hle : len / 16 * (16 / size) ≤ (r.gpr 1).toNat := by
      refine Nat.le_of_mul_le_mul_right ?_ hpos
      rw [hfirst, hlen]
      omega
    have hrest : ((r.gpr 1).toNat - len / 16 * (16 / size)) * size = len % 16 := by
      rw [Nat.sub_mul, hfirst, hlen]
      omega
    have hput := f.put_append (r.gpr 7).toNat
      (fillPattern (len / 16 * (16 / size)) size (r.gpr 0 &&& sizeMask size))
      (fillPattern ((r.gpr 1).toNat - len / 16 * (16 / size)) size (r.gpr 0 &&& sizeMask size))
    rw [← RepOp.fillPattern_add, Nat.add_sub_of_le hle, RepOp.length_fillPattern, hfirst] at hput
    show f.put _ _ = f.put _ _ ↔ _
    rw [← hput, eq_comm, Flat.put_eq_self_iff, RepOp.length_fillPattern, hrest]
    refine Eq.to_iff (congrArg (· = _) (Flat.bytes_congr fun x h1 _ => ?_))
    exact Flat.byte_put_of_notMem (.inr (by rw [RepOp.length_fillPattern, hfirst]; exact h1))
  | movs =>
    have hinline : ∀ x, (inlineMemory .movs size len r f).byte x =
        if (r.gpr 7).toNat ≤ x ∧ x < (r.gpr 7).toNat + len / 16 * 16 then f.byte ((r.gpr 6).toNat +
          origin 16 ((r.gpr 7).toNat - (r.gpr 6).toNat) (x - (r.gpr 7).toNat))
        else f.byte x := Flat.byte_copyElems (by decide) f _ _ _
    have helem : ∀ x, (RepOp.movs.upwards size (r.gpr 1).toNat r f).byte x =
        if (r.gpr 7).toNat ≤ x ∧ x < (r.gpr 7).toNat + len then f.byte ((r.gpr 6).toNat +
          origin size ((r.gpr 7).toNat - (r.gpr 6).toNat) (x - (r.gpr 7).toNat))
        else f.byte x := by
      rw [← hlen]
      exact Flat.byte_copyElems hpos f _ _ _
    constructor
    · intro h
      have hbyte : ∀ j, (inlineMemory .movs size len r f).byte ((r.gpr 7).toNat + j) =
          (RepOp.movs.upwards size (r.gpr 1).toNat r f).byte ((r.gpr 7).toNat + j) :=
        fun j => by rw [h]
      simp only [hinline, helem, Nat.add_sub_cancel_left] at hbyte
      refine ⟨fun j hj => ?_, fun j h1 h2 => ?_⟩
      · have := hbyte j
        rwa [if_pos (by omega), if_pos (by omega)] at this
      · have := hbyte j
        rwa [if_neg (by omega), if_pos (by omega)] at this
    · rintro ⟨h1, h2⟩
      refine Flat.ext_byte ?_ ?_ fun x => ?_
      · rw [RepOp.readable_upwards]
        exact Flat.readable_copyElems ..
      · rw [RepOp.writable_upwards]
        exact Flat.writable_copyElems ..
      · rw [hinline, helem]
        by_cases hx : (r.gpr 7).toNat ≤ x ∧ x < (r.gpr 7).toNat + len
        · rw [if_pos hx]
          by_cases hx' : x < (r.gpr 7).toNat + len / 16 * 16
          · rw [if_pos ⟨hx.1, hx'⟩]
            exact h1 _ (by omega)
          · rw [if_neg (by omega)]
            have := h2 (x - (r.gpr 7).toNat) (by omega) (by omega)
            rwa [Nat.add_sub_of_le hx.1] at this
        · rw [if_neg hx, if_neg (by omega)]

/-- The registers after the inline code are those after the elements. -/
theorem inlineRegs_gpr (op : RepOp) (size : ℕ) (r : RegFile) {i : Fin 16}
    (hi : i = 1 ∨ i = 6 ∨ i = 7) :
    (inlineRegs op (.ofNat 64 ((r.gpr 1).toNat * size)) r).gpr i =
      (op.advance size (r.gpr 1).toNat r).gpr i := by
  rcases hi with rfl | rfl | rfl
  · have hzero : saturatingSub (r.gpr 1) (r.gpr 1).toNat = 0 := by
      rw [saturatingSub, Nat.sub_self]
      rfl
    rw [RepOp.advance_rcx, hzero]
    cases op with
    | stos => exact RegFile.setGpr_gpr_self ..
    | movs => exact RegFile.setGpr_gpr_self ..
  · cases op with
    | stos =>
      rw [inlineRegs, RegFile.setGpr_gpr_of_ne _ _ (by decide),
        RegFile.setGpr_gpr_of_ne _ _ (by decide), RepOp.advance,
        RegFile.stored_gpr _ _ _ (by decide) (by decide)]
    | movs =>
      rw [inlineRegs, RegFile.setGpr_gpr_of_ne _ _ (by decide),
        RegFile.setGpr_gpr_of_ne _ _ (by decide), RegFile.setGpr_gpr_self, RepOp.advance,
        RegFile.moved_rsi]
  · cases op with
    | stos =>
      rw [inlineRegs, RegFile.setGpr_gpr_of_ne _ _ (by decide), RegFile.setGpr_gpr_self,
        RepOp.advance, RegFile.stored_rdi]
    | movs =>
      rw [inlineRegs, RegFile.setGpr_gpr_of_ne _ _ (by decide), RegFile.setGpr_gpr_self,
        RepOp.advance, RegFile.moved_rdi]

/-- Elements that wrap around are not all granted. -/
theorem not_granted_of_wrap {f : Flat} (hl : f.Low) {n : ℕ} (hn : 2 ^ 64 ≤ n * size) :
    ¬op.Granted size n r f := by
  intro hg
  have hrdi := (r.gpr 7).isLt
  have := hl _ (hg.2.rd (2 ^ 64 - 1) (by omega) (by omega))
  omega

theorem sameExit_iff (hinv : Inv env m) (op : RepOp) (bulk : Bool) (hsize : size ∈ [1, 2, 4, 8])
    (hn : inlineRep env op size r m = .next r₁ m₁) {x : Except StepExecError Unit}
    (hr : RepRuns env (op.exec bulk size) r m x r₂ m₂) :
    SameExit r₁ m₁.flat x r₂ m₂.flat ↔ InlineAgrees op size r m.flat := by
  have hsize' : size = 1 ∨ size = 2 ∨ size = 4 ∨ size = 8 := by
    simpa only [List.mem_cons, List.not_mem_nil, or_false] using hsize
  obtain ⟨hdf, -, hle, hgw, hgr, rfl, hflat⟩ := inlineRep_next hinv hsize hn
  have hlen : r.gpr 1 * .ofNat 64 size = .ofNat 64 ((r.gpr 1).toNat * size) := by
    rw [BitVec.ofNat_mul, BitVec.ofNat_toNat, BitVec.setWidth_eq]
  rw [hlen] at hle hgw hgr hflat ⊢
  rcases Nat.lt_or_ge ((r.gpr 1).toNat * size) (2 ^ 64) with hlt | hge
  · have hnat : (BitVec.ofNat 64 ((r.gpr 1).toNat * size)).toNat = (r.gpr 1).toNat * size := by
      rw [BitVec.toNat_ofNat, Nat.mod_eq_of_lt hlt]
    rw [hnat] at hle hgw hgr hflat
    have hgranted : op.Granted size (r.gpr 1).toNat r m.flat := ⟨hgr, hgw⟩
    have hcount : (r.gpr 1).toNat ≤ REP_BULK_MAX := by
      have : (r.gpr 1).toNat ≤ (r.gpr 1).toNat * size := Nat.le_mul_of_pos_right _ (by omega)
      exact (this.trans hle).trans (by decide)
    -- the helper does its elements
    obtain ⟨y, hy, hx⟩ := (op.endsAsElements_iff hinv hsize hr).mpr
      (RepOp.runAgrees_of_granted hcount hgranted)
    have hall := (RepOp.forward_iff hinv.low hdf).mpr ⟨hgranted, rfl⟩
    rw [hall] at hy
    obtain ⟨rfl, hs⟩ := Prod.mk.inj hy
    obtain ⟨rfl, hm⟩ := Prod.mk.inj hs
    have hend : x = .ok () := by
      cases x with
      | ok u => rfl
      | error e => cases hx
    rw [← inlineMemory_eq_iff hsize hlt, ← hflat, hm]
    exact ⟨fun hs => hs.flat, fun hf => ⟨hend, inlineRegs_gpr op size r (.inl rfl),
      inlineRegs_gpr op size r (.inr (.inl rfl)), inlineRegs_gpr op size r (.inr (.inr rfl)), hf⟩⟩
  · refine iff_of_false (fun hs => ?_) fun ha => absurd ha.1 (by omega)
    -- the helper would have stored at the top of the address space
    have hzero : r₂.gpr 1 = 0 := by
      rw [← hs.rcx]
      cases op with
      | stos => exact RegFile.setGpr_gpr_self ..
      | movs => exact RegFile.setGpr_gpr_self ..
    have hall := RepOp.elements_of_left hinv hsize hr hs.exit hzero
    exact not_granted_of_wrap hinv.low hge ((RepOp.forward_iff hinv.low hdf).mp hall).1

/-- **When inline code and helper are the same**: for every memory that calls can lead to, all
registers and every size of elements, where the inline code is taken and the process does not end. -/
theorem inlineRep_same_iff (h : Reachable env AnyCall m) (op : RepOp) (bulk : Bool)
    (hsize : size ∈ [1, 2, 4, 8]) (hn : inlineRep env op size r m = .next r₁ m₁)
    {x : Except StepExecError Unit} (hr : RepRuns env (op.exec bulk size) r m x r₂ m₂) :
    SameExit r₁ m₁.flat x r₂ m₂.flat ↔ InlineAgrees op size r m.flat :=
  sameExit_iff (Reachable.inv h) op bulk hsize hn hr

/-! ### A byte that is not stored -/

/-- Bytes to store from `0x20000` on. -/
def bytesToStore (count : BitVec 64) : RegFile :=
  ⟨Function.update (Function.update (Function.update (fun _ => 0) 7 0x20000) 1 count) 0 7,
    fun _ => 0, 0x401000, 2⟩

/-- What the inline code leaves, where it is taken. -/
def InlineEnd.result : InlineEnd → Option (RegFile × GuestMemory)
  | .next r m => some (r, m)
  | _ => none

theorem InlineEnd.exists_next {v : InlineEnd} (h : v.result.isSome = true) :
    ∃ r m, v = .next r m := by
  cases v with
  | next r m => exact ⟨r, m, rfl⟩
  | slow m => cases h
  | crash => cases h

/-- Sixteen bytes are one vector. -/
theorem inlineRep_same_sixteen : ∃ r₁ m₁ r₂ m₂,
    inlineRep .fourK .stos 1 (bytesToStore 16) somePages = .next r₁ m₁ ∧
      RepRuns .fourK (RepOp.stos.exec true 1) (bytesToStore 16) somePages (.ok ()) r₂ m₂ ∧
      SameExit r₁ m₁.flat (.ok ()) r₂ m₂.flat := by
  obtain ⟨r₁, m₁, hn⟩ := InlineEnd.exists_next
    (v := inlineRep .fourK .stos 1 (bytesToStore 16) somePages) (by decide +kernel)
  obtain ⟨r₂, m₂, hr⟩ : ∃ r₂ m₂, RepRuns .fourK (RepOp.stos.exec true 1) (bytesToStore 16)
      somePages (.ok ()) r₂ m₂ := exists_repRuns (by decide +kernel)
  exact ⟨r₁, m₁, r₂, m₂, hn, hr, (inlineRep_same_iff reachable_somePages .stos true (by decide) hn
    hr).mpr ⟨by decide, by decide⟩⟩

/-- **The seventeenth byte is not stored.** -/
theorem not_inlineRep_same : ¬∀ (env : HostEnv) (m m₁ m₂ : GuestMemory) (op : RepOp) (bulk : Bool)
    (size : ℕ) (r r₁ r₂ : RegFile) (x : Except StepExecError Unit), Reachable env AnyCall m →
      size ∈ [1, 2, 4, 8] → inlineRep env op size r m = .next r₁ m₁ →
      RepRuns env (op.exec bulk size) r m x r₂ m₂ → SameExit r₁ m₁.flat x r₂ m₂.flat := by
  intro hall
  obtain ⟨r₁, m₁, hn⟩ := InlineEnd.exists_next
    (v := inlineRep .fourK .stos 1 (bytesToStore 17) somePages) (by decide +kernel)
  obtain ⟨r₂, m₂, hr⟩ : ∃ r₂ m₂, RepRuns .fourK (RepOp.stos.exec true 1) (bytesToStore 17)
      somePages (.ok ()) r₂ m₂ := exists_repRuns (by decide +kernel)
  have hsame := hall _ _ _ _ .stos true 1 _ _ _ _ reachable_somePages (by decide) hn hr
  have hlast := ((sameExit_iff (Reachable.inv reachable_somePages) .stos true (by decide) hn
    hr).mp hsame).2
  revert hlast
  decide +kernel

end Wie
