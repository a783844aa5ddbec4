import Wie.Cpu.StringElems
import Wie.Jit.Ctx
import Wie.Lib.Copying
import Wie.Winapi.Ucrt

/-!
# The C runtime in compiled code

A compiled block does not stop at the host for `memcpy`, `strlen` and `fwrite`; it calls a helper,
which works on the guest memory of the context and marks a denied access as a fault there. The
helpers go over a range in chunks of 4096 bytes, and what they have done before a denied chunk
stays done.

The handlers read the whole range first. So the two part where a range cannot be read or written as
a whole after some of its chunks can, and where the target of a copy starts inside its source. They
also part in what they skip: the helper of `fwrite` reads nothing for a stream that is not the
console, and writes nothing where there is no buffer. And the helpers need no buffer on the host
heap.

## Main definitions

* `UcrtWorld` — guest memory and the console
* `wieUcrtMemcpy`, `wieUcrtStrlen`, `wieUcrtFwrite` — the helpers
* `UcrtCall` — a call of one of the three, with its arguments
* `SameEnd` — the helper ends as the handler does
* `UcrtCall.Matches` — the condition for it

## Main results

* `helper_matches_handler_iff` — a helper ends as the handler does under this condition and no other
-/

namespace Wie

/-- What the helpers work on. -/
structure UcrtWorld where
  /-- Guest memory. -/
  mem : Flat
  /-- The console. -/
  console : Console

namespace FastApi

/-- `stdout`, as the helpers know it. -/
def FILE_STDOUT : ℕ := 0x68000000 + 0x100

/-- `stderr`, as the helpers know it. -/
def FILE_STDERR : ℕ := 0x68000000 + 0x200

/-- The size of the buffer on the stack. -/
def CHUNK : ℕ := 4096

end FastApi

open FastApi (CHUNK)

/-- Mark a denied access. -/
def Core.deny (c : Core UcrtWorld) (addr size : ℕ) (write : Bool) : Core UcrtWorld :=
  { c with fault := some ⟨.ofNat 64 addr, size, write⟩ }

/-- The loop of `wie_ucrt_memcpy`. -/
def memcpyLoop : ℕ → Core UcrtWorld → ℕ → ℕ → ℕ → Core UcrtWorld
  | 0, c, _, _, _ => c
  | fuel + 1, c, d, s, remaining =>
    if 0 < remaining then
      let chunk := min remaining CHUNK
      match c.mem.mem.load s chunk with
      | none => c.deny s chunk false
      | some buf =>
        match c.mem.mem.store d buf with
        | none => c.deny d chunk true
        | some mem =>
          memcpyLoop fuel { c with mem := { c.mem with mem := mem } } ((d + chunk) % 2 ^ 64)
            ((s + chunk) % 2 ^ 64) (remaining - chunk)
    else c

/-- `wie_ucrt_memcpy`. -/
def wieUcrtMemcpy (c : Core UcrtWorld) (dest src n : ℕ) : ℕ × Core UcrtWorld :=
  if c.fault.isSome then (dest, c)
  else if n = 0 ∨ dest = 0 ∨ src = 0 then (dest, c)
  else (dest, memcpyLoop n c dest src n)

/-- The loop of `wie_ucrt_strlen`. -/
def wieUcrtStrlenLoop (c : Core UcrtWorld) (s : ℕ) : ℕ → ℕ → ℕ × Core UcrtWorld
  | 0, len => (len, c)
  | fuel + 1, len =>
    match c.mem.mem.load ((s + len) % 2 ^ 64) 1 with
    | none => (len, c.deny ((s + len) % 2 ^ 64) 1 false)
    | some b =>
      if b = [0] then (len, c)
      else
        let len := satAdd len 1
        if 1000000 < len then (len, c) else wieUcrtStrlenLoop c s fuel len

/-- `wie_ucrt_strlen`. -/
def wieUcrtStrlen (c : Core UcrtWorld) (s : ℕ) : ℕ × Core UcrtWorld :=
  if c.fault.isSome ∨ s = 0 then (0, c) else wieUcrtStrlenLoop c s 1000001 0

/-- The loop of `wie_ucrt_fwrite`, with the value it returns at its end. -/
def fwriteLoop (t : Terminal) (stream count : ℕ) :
    ℕ → Core UcrtWorld → ℕ → ℕ → ℕ × Core UcrtWorld
  | 0, c, _, _ => (count, c)
  | fuel + 1, c, src, remaining =>
    if 0 < remaining then
      let chunk := min remaining CHUNK
      match c.mem.mem.load src chunk with
      | none => (0, c.deny src chunk false)
      | some bytes =>
        let console := writeHostConsole t c.mem.console stream bytes
        fwriteLoop t stream count fuel { c with mem := { c.mem with console := console } }
          ((src + chunk) % 2 ^ 64) (remaining - chunk)
    else (count, c)

/-- `wie_ucrt_fwrite`. -/
def wieUcrtFwrite (t : Terminal) (c : Core UcrtWorld) (buf size count stream : ℕ) :
    ℕ × Core UcrtWorld :=
  if c.fault.isSome then (0, c)
  else if size = 0 ∨ count = 0 then (0, c)
  else
    let total := satMul size count
    if total = 0 then (0, c)
    else if stream ≠ FastApi.FILE_STDOUT ∧ stream ≠ FastApi.FILE_STDERR then (count, c)
    else if buf = 0 then (count, c)
    else fwriteLoop t stream count total c buf total

/-! ### The loop of the copy -/

/-- The context with other guest memory. -/
def Core.withMem (c : Core UcrtWorld) (m : Flat) : Core UcrtWorld :=
  { c with mem := { c.mem with mem := m } }

/-- Where the copy is denied, what was copied before was in place already: so say all the whole
chunks from the start that can be read and written. -/
def InPlace (m : Flat) (d s n : ℕ) : Prop :=
  ∀ k ≤ n, CHUNK ∣ k → m.Rd s k → m.Rw d k → m.bytes d k = m.bytes s k

namespace Flat

variable {m : Flat} {a k d s n : ℕ}

/-- What can be read in one piece ends below the top. -/
theorem Low.mod_of_rd (hl : m.Low) (hk : 0 < k) (h : m.Rd a k) : (a + k) % 2 ^ 64 = a + k := by
  have := hl (a + k - 1) (h _ (by omega) (by omega))
  exact Nat.mod_eq_of_lt (by omega)

theorem copyChunks_zero (m : Flat) (e src dst : ℕ) : m.copyChunks e src dst 0 = m := by
  rw [copyChunks, Nat.zero_div, Nat.zero_mod]
  exact put_nil ..

/-- The first chunk is in place, and the others are. -/
theorem inPlace_add (hr : m.Rd s CHUNK) (hw : m.Rw d CHUNK) : InPlace m d s (CHUNK + n) ↔
    m.bytes d CHUNK = m.bytes s CHUNK ∧ InPlace m (d + CHUNK) (s + CHUNK) n := by
  constructor
  · intro h
    have hfirst := h CHUNK (Nat.le_add_right ..) (dvd_refl _) hr hw
    refine ⟨hfirst, fun k hk hd hrk hwk => ?_⟩
    have hall := h (CHUNK + k) (by omega) (Nat.dvd_add (dvd_refl _) hd)
      (rd_append.mpr ⟨hr, hrk⟩) (rw_append.mpr ⟨hw, hwk⟩)
    rw [bytes_add, bytes_add, hfirst] at hall
    exact List.append_cancel_left hall
  · rintro ⟨hfirst, h⟩ k hk hd hrk hwk
    obtain ⟨q, rfl⟩ := hd
    cases q with
    | zero => rfl
    | succ q =>
      have hsucc : CHUNK * (q + 1) = CHUNK + CHUNK * q := by ring
      rw [hsucc] at hk hrk hwk ⊢
      rw [bytes_add, bytes_add, hfirst,
        h _ (by omega) (dvd_mul_right ..) (rd_append.mp hrk).2 (rw_append.mp hwk).2]

end Flat

section Copy

variable {c : Core UcrtWorld} {d s n : ℕ}

theorem low_withMem (hl : c.mem.mem.Low) (bs : List UInt8) :
    (c.withMem (c.mem.mem.put d bs)).mem.mem.Low := hl

/-- One round of the loop: the chunk is copied, or it is denied. -/
theorem memcpyLoop_step (hl : c.mem.mem.Low) (fuel : ℕ) (hn : 0 < n) :
    (c.mem.mem.Rd s (min n CHUNK) ∧ c.mem.mem.Rw d (min n CHUNK) ∧
      memcpyLoop (fuel + 1) c d s n =
        memcpyLoop fuel (c.withMem (c.mem.mem.put d (c.mem.mem.bytes s (min n CHUNK))))
          (d + min n CHUNK) (s + min n CHUNK) (n - min n CHUNK)) ∨
    (¬(c.mem.mem.Rd s (min n CHUNK) ∧ c.mem.mem.Rw d (min n CHUNK)) ∧
      ∃ a w, memcpyLoop (fuel + 1) c d s n = c.deny a (min n CHUNK) w) := by
  have hk : 0 < min n CHUNK := lt_min hn (by decide)
  rw [memcpyLoop, if_pos hn]
  dsimp only
  cases hload : c.mem.mem.load s (min n CHUNK) with
  | none =>
    refine .inr ⟨fun h => ?_, _, _, rfl⟩
    rw [Flat.load_eq h.1] at hload
    cases hload
  | some buf =>
    obtain ⟨hr, rfl⟩ := Flat.load_eq_some_iff.mp hload
    have hlen := c.mem.mem.length_bytes s (min n CHUNK)
    dsimp only
    cases hstore : c.mem.mem.store d (c.mem.mem.bytes s (min n CHUNK)) with
    | none =>
      refine .inr ⟨fun h => Flat.store_eq_none hstore ?_, _, _, rfl⟩
      rw [hlen]
      exact h.2
    | some m =>
      obtain ⟨rfl, hw⟩ := Flat.store_eq_some hstore
      rw [hlen] at hw
      refine .inl ⟨hr, hw, ?_⟩
      dsimp only
      rw [hl.mod_of_rd hk hr, hl.mod_of_rd hk hw.rd]
      rfl

theorem memcpyLoop_zero (fuel : ℕ) : memcpyLoop fuel c d s 0 = c := by
  cases fuel <;> rfl

/-- **Where the range is granted, it is copied in chunks.** -/
theorem memcpyLoop_of_granted : ∀ (fuel : ℕ) {c : Core UcrtWorld} {d s n : ℕ}, n ≤ fuel →
    c.mem.mem.Low → c.mem.mem.Rd s n → c.mem.mem.Rw d n →
    memcpyLoop fuel c d s n = c.withMem (c.mem.mem.copyChunks CHUNK s d n) := by
  intro fuel
  induction fuel with
  | zero =>
    intro c d s n hn _ _ _
    obtain rfl := Nat.le_zero.mp hn
    rw [Flat.copyChunks_zero]
    rfl
  | succ fuel ih =>
    intro c d s n hn hl hr hw
    have hchunk : 0 < CHUNK := by decide
    rcases Nat.eq_zero_or_pos n with rfl | hpos
    · rw [Flat.copyChunks_zero]
      rfl
    have hsplit : n = min n CHUNK + (n - min n CHUNK) := by omega
    have hr' := hr
    have hw' := hw
    rw [hsplit, Flat.rd_append] at hr'
    rw [hsplit, Flat.rw_append] at hw'
    rcases memcpyLoop_step hl fuel hpos (d := d) (s := s) with ⟨-, -, hstep⟩ | ⟨hno, -⟩
    · rw [hstep, ih (by omega) (low_withMem hl _) hr'.2 (hw'.2.congr rfl)]
      rcases Nat.lt_or_ge n CHUNK with hlt | hge
      · rw [min_eq_left hlt.le, Nat.sub_self, Flat.copyChunks_zero, Flat.copyChunks_of_lt hlt]
        rfl
      · have hn' : n = CHUNK + (n - CHUNK) := by omega
        rw [min_eq_right hge]
        conv_rhs => rw [hn', Flat.copyChunks_step hchunk]
        rfl
    · exact absurd ⟨hr'.1, hw'.1⟩ hno

/-- What lies before the target stays. -/
theorem byte_memcpyLoop : ∀ (fuel : ℕ) {c : Core UcrtWorld} {d s n x : ℕ}, c.mem.mem.Low → x < d →
    (memcpyLoop fuel c d s n).mem.mem.byte x = c.mem.mem.byte x := by
  intro fuel
  induction fuel with
  | zero => exact fun _ _ => rfl
  | succ fuel ih =>
    intro c d s n x hl hx
    rcases Nat.eq_zero_or_pos n with rfl | hpos
    · rw [memcpyLoop_zero]
    rcases memcpyLoop_step hl fuel hpos (d := d) (s := s) with ⟨-, -, hstep⟩ | ⟨-, a, w, hstep⟩
    · rw [hstep, ih (low_withMem hl _) (by omega)]
      exact Flat.byte_put_of_notMem (.inl hx)
    · rw [hstep]
      rfl

/-- **Where the range is not granted as a whole, the copy ends with a fault**, the console is as it
was, and memory is if what was copied was in place. -/
theorem memcpyLoop_of_denied : ∀ (fuel : ℕ) {c : Core UcrtWorld} {d s n : ℕ}, n ≤ fuel →
    c.mem.mem.Low → ¬(c.mem.mem.Rd s n ∧ c.mem.mem.Rw d n) →
    (memcpyLoop fuel c d s n).fault.isSome = true ∧
      (memcpyLoop fuel c d s n).mem.console = c.mem.console ∧
      ((memcpyLoop fuel c d s n).mem.mem = c.mem.mem ↔ InPlace c.mem.mem d s n) := by
  intro fuel
  induction fuel with
  | zero =>
    intro c d s n hn _ hno
    obtain rfl := Nat.le_zero.mp hn
    exact absurd ⟨fun x h1 h2 => by omega, fun x h1 h2 => by omega⟩ hno
  | succ fuel ih =>
    intro c d s n hn hl hno
    rcases Nat.eq_zero_or_pos n with rfl | hpos
    · exact absurd ⟨fun x h1 h2 => by omega, fun x h1 h2 => by omega⟩ hno
    rcases memcpyLoop_step hl fuel hpos (d := d) (s := s) with ⟨hr, hw, hstep⟩ | ⟨hde, a, w, hstep⟩
    · -- the chunk is a whole one, and the rest of the range is denied
      have hge : CHUNK ≤ n := by
        by_contra hlt
        rw [min_eq_left (by omega)] at hr hw
        exact hno ⟨hr, hw⟩
      rw [min_eq_right hge] at hr hw hstep
      obtain ⟨r, rfl⟩ := Nat.exists_eq_add_of_le hge
      rw [Nat.add_sub_cancel_left] at hstep
      set m := c.mem.mem with hm
      have hrest : ¬(m.Rd (s + CHUNK) r ∧ m.Rw (d + CHUNK) r) := fun h =>
        hno ⟨Flat.rd_append.mpr ⟨hr, h.1⟩, Flat.rw_append.mpr ⟨hw, h.2⟩⟩
      have hchunk : 0 < CHUNK := by decide
      obtain ⟨hf, hc, hmem⟩ := ih (c := c.withMem (m.put d (m.bytes s CHUNK))) (d := d + CHUNK)
        (s := s + CHUNK) (n := r) (by omega) hl fun h => hrest ⟨h.1, h.2.congr rfl⟩
      rw [hstep, Flat.inPlace_add hr hw]
      refine ⟨hf, hc, ?_⟩
      have hself : m.put d (m.bytes s CHUNK) = m ↔ m.bytes d CHUNK = m.bytes s CHUNK := by
        rw [Flat.put_eq_self_iff, Flat.length_bytes]
      constructor
      · intro h
        -- the rest of the copy does not touch the first chunk
        have hput : m.put d (m.bytes s CHUNK) = m := by
          have hbytes : (m.put d (m.bytes s CHUNK)).bytes d CHUNK = m.bytes d CHUNK := by
            refine Flat.bytes_congr fun x h1 h2 => ?_
            have hkept := byte_memcpyLoop fuel (c := c.withMem (m.put d (m.bytes s CHUNK)))
              (s := s + CHUNK) (n := r) hl h2
            rw [h] at hkept
            exact hkept.symm
          have hnew := Flat.bytes_put m d (m.bytes s CHUNK)
          rw [Flat.length_bytes] at hnew
          rw [hself, ← hbytes, hnew]
        refine ⟨hself.mp hput, ?_⟩
        rw [hput] at hmem h
        exact hmem.mp h
      · rintro ⟨hfirst, h⟩
        rw [hself.mpr hfirst] at hmem ⊢
        exact hmem.mpr h
    · rw [hstep]
      refine ⟨rfl, rfl, iff_of_true rfl fun k hk hd hr hw => ?_⟩
      obtain ⟨q, rfl⟩ := hd
      cases q with
      | zero => rfl
      | succ q =>
        -- a whole chunk could be copied
        have hle : CHUNK ≤ CHUNK * (q + 1) := Nat.le_mul_of_pos_right _ q.succ_pos
        rw [min_eq_right (hle.trans hk)] at hde
        exact absurd ⟨fun x h1 h2 => hr x h1 (by omega), hw.mono le_rfl (by omega)⟩ hde

end Copy

/-! ### The loop of the measurement -/

/-- **The two loops are one**, but for what they do with a denied access. -/
theorem wieUcrtStrlenLoop_eq (c : Core UcrtWorld) (s : ℕ) : ∀ fuel len,
    match handleStrlenLoop c.mem.mem s fuel len with
    | .ok v => wieUcrtStrlenLoop c s fuel len = (v, c)
    | .error _ => ∃ v a, wieUcrtStrlenLoop c s fuel len = (v, c.deny a 1 false) := by
  intro fuel
  induction fuel with
  | zero => exact fun len => rfl
  | succ fuel ih =>
    intro len
    rw [handleStrlenLoop, wieUcrtStrlenLoop]
    cases c.mem.mem.load ((s + len) % 2 ^ 64) 1 with
    | none => exact ⟨_, _, rfl⟩
    | some b =>
      dsimp only
      by_cases hb : b = [0]
      · simp only [if_pos hb]
      · simp only [if_neg hb]
        by_cases hlen : 1000000 < satAdd len 1
        · simp only [if_pos hlen]
        · simp only [if_neg hlen]
          exact ih (satAdd len 1)

/-! ### The loop of the write -/

section Write

variable {c : Core UcrtWorld} {t : Terminal} {src n stream count : ℕ}

/-- The context after `n` bytes from `src` on went to the stream. -/
def Core.wrote (c : Core UcrtWorld) (stream src n : ℕ) : Core UcrtWorld :=
  { c with mem := { c.mem with console := c.mem.console.add stream (c.mem.mem.bytes src n) } }

theorem wrote_zero (c : Core UcrtWorld) (stream src : ℕ) : c.wrote stream src 0 = c := by
  have hadd : c.mem.console.add stream (c.mem.mem.bytes src 0) = c.mem.console :=
    Console.add_eq_self_iff.mpr rfl
  rw [Core.wrote, hadd]

theorem wrote_add (c : Core UcrtWorld) (stream src n k : ℕ) :
    (c.wrote stream src n).wrote stream (src + n) k = c.wrote stream src (n + k) := by
  have hadd := c.mem.console.add_add stream (c.mem.mem.bytes src n) (c.mem.mem.bytes (src + n) k)
  rw [← Flat.bytes_add] at hadd
  rw [Core.wrote, Core.wrote, Core.wrote, hadd]

/-- One round of the loop: the chunk is written, or it is denied. -/
theorem fwriteLoop_step (t : Terminal) (stream count src : ℕ) (hl : c.mem.mem.Low) (fuel : ℕ)
    (hn : 0 < n) :
    (c.mem.mem.Rd src (min n CHUNK) ∧
      fwriteLoop t stream count (fuel + 1) c src n =
        fwriteLoop t stream count fuel (c.wrote stream src (min n CHUNK)) (src + min n CHUNK)
          (n - min n CHUNK)) ∨
    (¬c.mem.mem.Rd src (min n CHUNK) ∧ ∃ a,
      fwriteLoop t stream count (fuel + 1) c src n = (0, c.deny a (min n CHUNK) false)) := by
  have hk : 0 < min n CHUNK := lt_min hn (by decide)
  rw [fwriteLoop, if_pos hn]
  dsimp only
  cases hload : c.mem.mem.load src (min n CHUNK) with
  | none =>
    refine .inr ⟨fun h => ?_, _, rfl⟩
    rw [Flat.load_eq h] at hload
    cases hload
  | some bytes =>
    obtain ⟨hr, rfl⟩ := Flat.load_eq_some_iff.mp hload
    refine .inl ⟨hr, ?_⟩
    dsimp only
    rw [hl.mod_of_rd hk hr, writeHostConsole_eq]
    rfl

/-- **Where the range is granted, all of it is written.** -/
theorem fwriteLoop_of_granted : ∀ (fuel : ℕ) {c : Core UcrtWorld} {src n : ℕ}, n ≤ fuel →
    c.mem.mem.Low → c.mem.mem.Rd src n →
    fwriteLoop t stream count fuel c src n = (count, c.wrote stream src n) := by
  intro fuel
  induction fuel with
  | zero =>
    intro c src n hn _ _
    obtain rfl := Nat.le_zero.mp hn
    rw [wrote_zero]
    rfl
  | succ fuel ih =>
    intro c src n hn hl hr
    rcases Nat.eq_zero_or_pos n with rfl | hpos
    · rw [wrote_zero]
      rfl
    have hchunk : 0 < CHUNK := by decide
    have hsplit : n = min n CHUNK + (n - min n CHUNK) := by omega
    have hr' := hr
    rw [hsplit, Flat.rd_append] at hr'
    rcases fwriteLoop_step t stream count src hl fuel hpos with ⟨-, hstep⟩ | ⟨hno, -⟩
    · rw [hstep, ih (c := c.wrote stream src (min n CHUNK)) (by omega) hl hr'.2, wrote_add,
        ← hsplit]
    · exact absurd hr'.1 hno

/-- The loop only adds to the stream. -/
theorem exists_add_fwriteLoop (t : Terminal) (stream count : ℕ) : ∀ (fuel src n : ℕ)
    {c : Core UcrtWorld}, c.mem.mem.Low → ∃ bytes,
      (fwriteLoop t stream count fuel c src n).2.mem.console = c.mem.console.add stream bytes := by
  intro fuel
  induction fuel with
  | zero => exact fun _ _ _ _ => ⟨[], (Console.add_eq_self_iff.mpr rfl).symm⟩
  | succ fuel ih =>
    intro src n c hl
    rcases Nat.eq_zero_or_pos n with rfl | hpos
    · exact ⟨[], (Console.add_eq_self_iff.mpr rfl).symm⟩
    rcases fwriteLoop_step t stream count src hl fuel hpos with ⟨-, hstep⟩ | ⟨-, a, hstep⟩
    · obtain ⟨bytes, hb⟩ := ih (src + min n CHUNK) (n - min n CHUNK)
        (c := c.wrote stream src (min n CHUNK)) hl
      rw [hstep, hb]
      exact ⟨_, Console.add_add ..⟩
    · rw [hstep]
      exact ⟨[], (Console.add_eq_self_iff.mpr rfl).symm⟩

/-- **Where the range is not granted as a whole, the write ends with a fault**, memory is as it was,
and the console is if the first chunk was denied. -/
theorem fwriteLoop_of_denied (t : Terminal) (stream count : ℕ) : ∀ (fuel : ℕ)
    {c : Core UcrtWorld} {src n : ℕ}, n ≤ fuel → c.mem.mem.Low → ¬c.mem.mem.Rd src n →
    (fwriteLoop t stream count fuel c src n).2.fault.isSome = true ∧
      (fwriteLoop t stream count fuel c src n).2.mem.mem = c.mem.mem ∧
      ((fwriteLoop t stream count fuel c src n).2.mem.console = c.mem.console ↔
        ¬c.mem.mem.Rd src (min n CHUNK)) := by
  intro fuel
  induction fuel with
  | zero =>
    intro c src n hn _ hno
    obtain rfl := Nat.le_zero.mp hn
    exact absurd (fun x h1 h2 => by omega) hno
  | succ fuel ih =>
    intro c src n hn hl hno
    rcases Nat.eq_zero_or_pos n with rfl | hpos
    · exact absurd (fun x h1 h2 => by omega) hno
    have hchunk : 0 < CHUNK := by decide
    rcases fwriteLoop_step t stream count src hl fuel hpos with ⟨hr, hstep⟩ | ⟨hde, a, hstep⟩
    · have hsplit : n = min n CHUNK + (n - min n CHUNK) := by omega
      have hrest : ¬c.mem.mem.Rd (src + min n CHUNK) (n - min n CHUNK) := by
        intro h
        rw [hsplit, Flat.rd_append] at hno
        exact hno ⟨hr, h⟩
      obtain ⟨hf, hm, -⟩ := ih (c := c.wrote stream src (min n CHUNK)) (by omega) hl hrest
      obtain ⟨bytes, hb⟩ := exists_add_fwriteLoop t stream count fuel (src + min n CHUNK)
        (n - min n CHUNK) (c := c.wrote stream src (min n CHUNK)) hl
      rw [hstep]
      refine ⟨hf, hm, iff_of_false (fun h => ?_) (not_not.mpr hr)⟩
      -- the bytes of the first chunk are on the stream
      rw [hb] at h
      have hadd := (Console.add_add ..).symm.trans h
      have hlen := congrArg List.length (Console.add_eq_self_iff.mp hadd)
      rw [List.length_append, Flat.length_bytes, List.length_nil] at hlen
      omega
    · rw [hstep]
      exact ⟨rfl, rfl, iff_of_true rfl hde⟩

end Write

/-! ### Helper and handler -/

/-- A call of one of the three functions. -/
inductive UcrtCall
  /-- `memcpy(dest, src, n)`. -/
  | memcpy (dest src n : ℕ)
  /-- `strlen(s)`. -/
  | strlen (s : ℕ)
  /-- `fwrite(buf, size, count, stream)`. -/
  | fwrite (buf size count stream : ℕ)

namespace UcrtCall

/-- The registers at the call. -/
def regs (r : Regs) : UcrtCall → Regs
  | memcpy dest src n => { r with rcx := dest, rdx := src, r8 := n }
  | strlen s => { r with rcx := s }
  | fwrite buf size count stream => { r with rcx := buf, rdx := size, r8 := count, r9 := stream }

/-- The call on the host. -/
def handle (heap : HostHeap) (t : Terminal) (r : Regs) (w : UcrtWorld) (call : UcrtCall) :
    Option (ApiResult × UcrtWorld) :=
  let e : CpuEngine := ⟨call.regs r, w.mem⟩
  match call with
  | memcpy .. => (handleMemcpy heap e).map fun x => (x.1, ⟨x.2.mem, w.console⟩)
  | strlen _ => some ((handleStrlen e).1, ⟨(handleStrlen e).2.mem, w.console⟩)
  | fwrite .. => (handleFwrite heap t e w.console).map fun x => (x.1, ⟨x.2.1.mem, x.2.2⟩)

/-- The call in compiled code. -/
def help (t : Terminal) (c : Core UcrtWorld) : UcrtCall → ℕ × Core UcrtWorld
  | memcpy dest src n => wieUcrtMemcpy c dest src n
  | strlen s => wieUcrtStrlen c s
  | fwrite buf size count stream => wieUcrtFwrite t c buf size count stream

/-- The buffer is granted, and the chunks show neither in the memory after the call nor before a
denied access: what a chunk reads after an earlier chunk wrote it had that value before, what was
copied before the first denied chunk was in place, and the console is not reached before a denied
chunk. A buffer at 0 is not written, and without the console nothing is read. -/
def Matches (heap : HostHeap) (m : Flat) : UcrtCall → Prop
  | memcpy dest src n =>
    (n = 0 ∨ dest = 0 ∨ src = 0) ∨ heap.grants n = true ∧
      (m.Rd src n ∧ m.Rw dest n → ∀ j < n, 0 < dest - src → dest - src ≤ j →
        j % CHUNK < dest - src → m.byte (src + (j - (dest - src))) = m.byte (src + j)) ∧
      (¬(m.Rd src n ∧ m.Rw dest n) → InPlace m dest src n)
  | strlen _ => True
  | fwrite buf size count stream =>
    (size = 0 ∨ count = 0) ∨ heap.grants (satMul size count) = true ∧
      if stream = FILE_STDOUT ∨ stream = FILE_STDERR then
        buf ≠ 0 ∧ (m.Rd buf (min (satMul size count) CHUNK) → m.Rd buf (satMul size count))
      else buf ≠ 0 → m.Rd buf (satMul size count)

end UcrtCall

/-- The helper ends as the handler does: with the value, or with a fault where the handler fails,
and with the same memory and console. -/
def SameEnd (host : Option (ApiResult × UcrtWorld)) (helper : ℕ × Core UcrtWorld) : Prop :=
  match host with
  | some (.returned _ v, w) => helper.2.fault = none ∧ helper.1 = v ∧ helper.2.mem = w
  | some (.error, w) => helper.2.fault.isSome = true ∧ helper.2.mem = w
  | _ => False

section Same

variable {heap : HostHeap} {t : Terminal} {c : Core UcrtWorld} {r : Regs} {e : CpuEngine}

theorem UcrtWorld.ext {w w' : UcrtWorld} (hm : w'.mem = w.mem) (hc : w'.console = w.console) :
    w' = w := by
  cases w
  cases w'
  cases hm
  cases hc
  rfl

/-- After a return: no fault, the value, and the memory and console. -/
theorem sameEnd_return_iff {v : ℕ} {console : Console} {x : ℕ × Core UcrtWorld}
    (h : CpuEngine.CanReturn e.mem e.regs) :
    SameEnd (some ((e.returnFromWin64Api v).1, ⟨(e.returnFromWin64Api v).2.mem, console⟩)) x ↔
      x.2.fault = none ∧ x.1 = v ∧ x.2.mem = ⟨e.mem, console⟩ := by
  obtain ⟨ret, hret⟩ := CpuEngine.returnFromWin64Api_of_canReturn h v
  rw [hret, CpuEngine.returnFromWin64Api_mem]
  rfl

theorem not_sameEnd_none {x : ℕ × Core UcrtWorld} : ¬SameEnd none x := id

/-- **`memcpy`.** -/
theorem memcpy_sameEnd_iff (hl : c.mem.mem.Low) (hret : CpuEngine.CanReturn c.mem.mem r)
    (hf : c.fault = none) (dest src n : ℕ) :
    SameEnd (UcrtCall.handle heap t r c.mem (.memcpy dest src n))
      (UcrtCall.help t c (.memcpy dest src n)) ↔
      UcrtCall.Matches heap c.mem.mem (.memcpy dest src n) := by
  have hfault : ¬c.fault.isSome = true := by rw [hf]; decide
  rw [UcrtCall.handle, UcrtCall.help, UcrtCall.Matches, wieUcrtMemcpy, if_neg hfault]
  dsimp only [UcrtCall.regs]
  set e : CpuEngine := ⟨{ r with rcx := dest, rdx := src, r8 := n }, c.mem.mem⟩ with he
  by_cases hskip : n = 0 ∨ dest = 0 ∨ src = 0
  · have hno : NoCopy e := hskip
    rw [if_pos hskip, handleMemcpy_of_noCopy hno, Option.map_some]
    refine iff_of_true ?_ (.inl hskip)
    exact (sameEnd_return_iff hret).mpr ⟨hf, rfl, rfl⟩
  have hcopy : ¬NoCopy e := hskip
  rw [if_neg hskip]
  by_cases hgr : heap.grants n = true
  swap
  · rw [handleMemcpy_of_refused hcopy hgr]
    exact iff_of_false not_sameEnd_none fun h => hgr ((or_iff_right hskip).mp h).1
  rw [or_iff_right hskip, and_iff_right hgr]
  by_cases hg : c.mem.mem.Rd src n ∧ c.mem.mem.Rw dest n
  · -- the range is granted: the copies agree, or the chunks show
    have hreturn : CpuEngine.CanReturn (c.mem.mem.put dest (c.mem.mem.bytes src n)) r := hret
    have heq := c.mem.mem.copyChunks_eq_put_iff (e := CHUNK) (by decide) src dest n
    rw [handleMemcpy_of_granted hcopy hgr hg.1 hg.2, Option.map_some,
      memcpyLoop_of_granted n le_rfl hl hg.1 hg.2]
    refine (sameEnd_return_iff hreturn).trans ?_
    constructor
    · rintro ⟨-, -, hmem⟩
      exact ⟨fun _ => heq.mp (congrArg UcrtWorld.mem hmem), fun h => absurd hg h⟩
    · rintro ⟨h, -⟩
      exact ⟨hf, rfl, UcrtWorld.ext (heq.mpr (h hg)) rfl⟩
  · -- it is not: both fail, and the memory is the same if nothing was altered before
    obtain ⟨hfault, hconsole, hmem⟩ := memcpyLoop_of_denied n le_rfl hl hg
    rw [handleMemcpy_of_denied hcopy hgr hg, Option.map_some]
    constructor
    · exact fun h => ⟨fun h' => absurd h' hg, fun _ => hmem.mp (congrArg UcrtWorld.mem h.2)⟩
    · exact fun h => ⟨hfault, UcrtWorld.ext (hmem.mpr (h.2 hg)) hconsole⟩

/-- **`strlen`.** -/
theorem strlen_sameEnd (hret : CpuEngine.CanReturn c.mem.mem r) (hf : c.fault = none) (s : ℕ) :
    SameEnd (UcrtCall.handle heap t r c.mem (.strlen s)) (UcrtCall.help t c (.strlen s)) := by
  rw [UcrtCall.handle, UcrtCall.help, wieUcrtStrlen]
  set e : CpuEngine := ⟨UcrtCall.regs r (.strlen s), c.mem.mem⟩ with he
  by_cases hs : s = 0
  · rw [if_pos (.inr hs), handleStrlen_of_null (e := e) hs]
    exact (sameEnd_return_iff hret).mpr ⟨hf, rfl, rfl⟩
  · have hno : ¬(c.fault.isSome = true ∨ s = 0) := by simp [hf, hs]
    have hloop := wieUcrtStrlenLoop_eq c s 1000001 0
    rw [if_neg hno]
    cases hh : handleStrlenLoop c.mem.mem s 1000001 0 with
    | ok v =>
      rw [hh] at hloop
      dsimp only at hloop
      rw [hloop, handleStrlen_of_ok (e := e) hs hh]
      exact (sameEnd_return_iff hret).mpr ⟨hf, rfl, rfl⟩
    | error =>
      rw [hh] at hloop
      obtain ⟨v, a, hloop⟩ := hloop
      rw [hloop, handleStrlen_of_error (e := e) hs hh]
      exact ⟨rfl, rfl⟩

/-- **`fwrite`.** -/
theorem fwrite_sameEnd_iff (hl : c.mem.mem.Low) (hret : CpuEngine.CanReturn c.mem.mem r)
    (hf : c.fault = none) (buf size count stream : ℕ) :
    SameEnd (UcrtCall.handle heap t r c.mem (.fwrite buf size count stream))
      (UcrtCall.help t c (.fwrite buf size count stream)) ↔
      UcrtCall.Matches heap c.mem.mem (.fwrite buf size count stream) := by
  have hfault : ¬c.fault.isSome = true := by rw [hf]; decide
  rw [UcrtCall.handle, UcrtCall.help, UcrtCall.Matches, wieUcrtFwrite, if_neg hfault]
  dsimp only [UcrtCall.regs]
  set e : CpuEngine :=
    ⟨{ r with rcx := buf, rdx := size, r8 := count, r9 := stream }, c.mem.mem⟩ with he
  by_cases hskip : size = 0 ∨ count = 0
  · have hno : NoWrite e := hskip
    rw [if_pos hskip, handleFwrite_of_noWrite hno, Option.map_some]
    refine iff_of_true ?_ (.inl hskip)
    exact (sameEnd_return_iff hret).mpr ⟨hf, rfl, rfl⟩
  have hwrite : ¬NoWrite e := hskip
  have hpos : 0 < satMul size count := fwriteTotal_pos hwrite
  rw [if_neg hskip, if_neg hpos.ne']
  by_cases hgr : heap.grants (satMul size count) = true
  swap
  · rw [handleFwrite_of_refused hwrite hgr]
    exact iff_of_false not_sameEnd_none fun h => hgr ((or_iff_right hskip).mp h).1
  rw [or_iff_right hskip, and_iff_right hgr]
  by_cases hs : stream = FILE_STDOUT ∨ stream = FILE_STDERR
  · have hno : ¬(stream ≠ FastApi.FILE_STDOUT ∧ stream ≠ FastApi.FILE_STDERR) := fun h =>
      hs.elim h.1 h.2
    rw [if_neg hno, if_pos hs]
    by_cases hb : buf = 0
    · -- the handler writes zeros
      rw [if_pos hb, handleFwrite_of_bytes hwrite hgr (.inr ⟨hb, rfl⟩), Option.map_some]
      refine iff_of_false (fun h => ?_) fun h => h.1 hb
      obtain ⟨-, -, hw⟩ := (sameEnd_return_iff hret).mp h
      have hadd := (congrArg UcrtWorld.console hw).symm
      rw [if_pos hs] at hadd
      have hlen := congrArg List.length (Console.add_eq_self_iff.mp hadd)
      rw [List.length_replicate] at hlen
      exact hpos.ne' hlen
    rw [if_neg hb, and_iff_right hb]
    by_cases hr : c.mem.mem.Rd buf (satMul size count)
    · rw [handleFwrite_of_bytes hwrite hgr (.inl ⟨hb, hr, rfl⟩), Option.map_some,
        fwriteLoop_of_granted _ le_rfl hl hr]
      refine iff_of_true ((sameEnd_return_iff hret).mpr ⟨hf, rfl, ?_⟩) fun _ => hr
      exact UcrtWorld.ext rfl (if_pos hs).symm
    · obtain ⟨hfault, hmem, hconsole⟩ := fwriteLoop_of_denied t stream count _ le_rfl hl hr
      rw [handleFwrite_of_denied hwrite hgr hb hr, Option.map_some]
      constructor
      · exact fun h h' => absurd h' (hconsole.mp (congrArg UcrtWorld.console h.2))
      · exact fun h => ⟨hfault, UcrtWorld.ext hmem (hconsole.mpr fun h' => hr (h h'))⟩
  · have hother : stream ≠ FastApi.FILE_STDOUT ∧ stream ≠ FastApi.FILE_STDERR :=
      ⟨fun h => hs (.inl h), fun h => hs (.inr h)⟩
    rw [if_pos hother, if_neg hs]
    by_cases hr : buf ≠ 0 → c.mem.mem.Rd buf (satMul size count)
    · have hdone : handleFwrite heap t e c.mem.console =
          some (fwriteDone e count c.mem.console) := by
        by_cases hb : buf = 0
        · rw [handleFwrite_of_bytes hwrite hgr (.inr ⟨hb, rfl⟩)]
          exact congrArg _ (congrArg _ (if_neg hs))
        · rw [handleFwrite_of_bytes hwrite hgr (.inl ⟨hb, hr hb, rfl⟩)]
          exact congrArg _ (congrArg _ (if_neg hs))
      rw [hdone, Option.map_some]
      exact iff_of_true ((sameEnd_return_iff hret).mpr ⟨hf, rfl, rfl⟩) hr
    · obtain ⟨hb, hr'⟩ := Classical.not_imp.mp hr
      rw [handleFwrite_of_denied hwrite hgr hb hr', Option.map_some]
      exact iff_of_false (fun h => hfault h.1) hr

/-- **A helper ends as the handler does** under the condition, and under no other. -/
theorem helper_matches_handler_iff (hl : c.mem.mem.Low) (hret : CpuEngine.CanReturn c.mem.mem r)
    (hf : c.fault = none) (call : UcrtCall) :
    SameEnd (call.handle heap t r c.mem) (call.help t c) ↔ call.Matches heap c.mem.mem := by
  cases call with
  | memcpy dest src n => exact memcpy_sameEnd_iff hl hret hf dest src n
  | strlen s => exact iff_of_true (strlen_sameEnd hret hf s) trivial
  | fwrite buf size count stream => exact fwrite_sameEnd_iff hl hret hf buf size count stream

end Same

/-- A heap that grants up to a gigabyte. -/
def HostHeap.gigabyte : HostHeap where
  grants n := decide (n ≤ 2 ^ 30)
  lt_of_grants h := by
    have := of_decide_eq_true h
    omega

/-- Streams that take everything at once. -/
def Terminal.eager : Terminal where
  takes _ n := n
  takes_pos _ _ h := h
  takes_le _ _ := le_rfl

/-- A context with everything zero but the world. -/
def Core.entering (w : UcrtWorld) : Core UcrtWorld where
  gpr := fun _ => 0
  rflags := 0
  rip := 0
  fault := none
  shadow := ⟨0, fun _ => 0⟩
  mem := w

/-- Memory below `2 ^ 32`, zero but for the last byte of the page at 0x20000. -/
def markedPage : Flat where
  byte x := if x = 0x20FFF then 1 else 0
  readable x := decide (x < 2 ^ 32)
  writable x := decide (x < 2 ^ 32)
  readable_of_writable _ h := h

theorem markedPage_low : markedPage.Low := by
  intro x hx
  have := of_decide_eq_true hx
  omega

/-- A call with its return address at 0x1000. -/
def ucrtReturn : Regs := ⟨0, 0, 0, 0, 0, 0x1000, 0⟩

theorem canReturn_markedPage : CpuEngine.CanReturn markedPage ucrtReturn := by
  intro x _ hx
  have hx : x < 0x1008 := hx
  exact decide_eq_true (by omega)

theorem helper_matches_handler_iff_small :
    SameEnd
      (UcrtCall.handle .gigabyte .eager ucrtReturn ⟨markedPage, ⟨[], []⟩⟩ (.memcpy 0x3000 0x2000 8))
      (UcrtCall.help .eager (.entering ⟨markedPage, ⟨[], []⟩⟩) (.memcpy 0x3000 0x2000 8)) ↔
      UcrtCall.Matches .gigabyte markedPage (.memcpy 0x3000 0x2000 8) :=
  helper_matches_handler_iff (c := .entering ⟨markedPage, ⟨[], []⟩⟩) markedPage_low
    canReturn_markedPage rfl (.memcpy 0x3000 0x2000 8)

/-- **One byte further on, a page and a byte.** The second chunk reads what the first has just
written. -/
theorem not_helper_matches_handler :
    ¬∀ (heap : HostHeap) (t : Terminal) (c : Core UcrtWorld) (r : Regs) (call : UcrtCall),
      c.mem.mem.Low → CpuEngine.CanReturn c.mem.mem r → c.fault = none →
      SameEnd (call.handle heap t r c.mem) (call.help t c) := by
  intro h
  have hmatches (dest src n : ℕ) : UcrtCall.Matches .gigabyte markedPage (.memcpy dest src n) :=
    (memcpy_sameEnd_iff (c := .entering ⟨markedPage, ⟨[], []⟩⟩) markedPage_low
      canReturn_markedPage rfl dest src n).mp
        (h .gigabyte .eager _ _ _ markedPage_low canReturn_markedPage rfl)
  have hgranted : markedPage.Rd 0x20000 4097 ∧ markedPage.Rw 0x20001 4097 :=
    ⟨fun x _ hx => decide_eq_true (by omega), fun x _ hx => decide_eq_true (by omega)⟩
  rcases hmatches 0x20001 0x20000 4097 with hskip | ⟨-, hbytes, -⟩
  · omega
  · have hbyte := hbytes hgranted 4096 (by decide) (by decide) (by decide) (by decide)
    exact absurd hbyte (by decide)

end Wie
