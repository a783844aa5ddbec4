import Wie.Lib.Flat
import Wie.Winapi.Engine

/-!
# Copying, measuring and writing, in the C runtime

`memcpy`, `strlen` and `fwrite` as the host carries them out when a guest call stops at it: the
whole range is read before anything is written.

The handlers copy through a buffer on the host heap. A buffer the heap does not grant ends the
process, and none of `2 ^ 63` bytes or more is ever granted. The console is the part of the host
that `fwrite` reaches: a stream may take less than it is offered, and is then offered the rest.

## Main definitions

* `HostHeap`, `Terminal` — the host: its heap and what its streams take
* `Console`, `writeHostConsole` — the console and a write to it
* `handleMemcpy`, `handleStrlen`, `handleFwrite` — the handlers

## Main results

* `writeAllFd_eq` — a stream gets all of what is written to it
-/

namespace Wie

/-- Where the objects of the C runtime are. -/
def CRT_GUEST_BASE : ℕ := 0x68000000

/-- `stdin`. -/
def FILE_STDIN : ℕ := CRT_GUEST_BASE

/-- `stdout`. -/
def FILE_STDOUT : ℕ := CRT_GUEST_BASE + 0x100

/-- `stderr`. -/
def FILE_STDERR : ℕ := CRT_GUEST_BASE + 0x200

/-- The heap of the host. -/
structure HostHeap where
  /-- Whether a buffer of that many bytes is granted. -/
  grants : ℕ → Bool
  /-- A buffer has fewer than `2 ^ 63` bytes. -/
  lt_of_grants : ∀ {n}, grants n = true → n < 2 ^ 63

/-- The streams of the host, which take what they are offered, some of it at a time. -/
structure Terminal where
  /-- How many of the bytes offered a stream takes, after what it has received. -/
  takes : List UInt8 → ℕ → ℕ
  /-- It takes some. -/
  takes_pos : ∀ sent {n}, 0 < n → 0 < takes sent n
  /-- It takes no more than it is offered. -/
  takes_le : ∀ sent n, takes sent n ≤ n

/-- What the streams of the console have received. -/
@[ext]
structure Console where
  /-- Standard output. -/
  out : List UInt8
  /-- Standard error. -/
  err : List UInt8
deriving DecidableEq

/-- `write_all_fd`: offer the rest until all is taken. -/
def writeAllFd (t : Terminal) : ℕ → List UInt8 → List UInt8 → List UInt8
  | 0, _, sent => sent
  | fuel + 1, bytes, sent =>
    if bytes = [] then sent
    else
      let n := t.takes sent bytes.length
      if n = 0 then sent else writeAllFd t fuel (bytes.drop n) (sent ++ bytes.take n)

/-- `write_host_console`: any stream but `stdout` is `stderr` here. -/
def writeHostConsole (t : Terminal) (c : Console) (stream : ℕ) (bytes : List UInt8) : Console :=
  if stream = FILE_STDOUT then { c with out := writeAllFd t bytes.length bytes c.out }
  else { c with err := writeAllFd t bytes.length bytes c.err }

/-- **A stream gets all of what is written to it.** -/
theorem writeAllFd_eq (t : Terminal) : ∀ (fuel : ℕ) (bytes sent : List UInt8),
    bytes.length ≤ fuel → writeAllFd t fuel bytes sent = sent ++ bytes
  | 0, bytes, sent, h => by
    rw [writeAllFd, List.length_eq_zero_iff.mp (Nat.le_zero.mp h), List.append_nil]
  | fuel + 1, bytes, sent, h => by
    rw [writeAllFd]
    by_cases hb : bytes = []
    · rw [if_pos hb, hb, List.append_nil]
    · have hpos := t.takes_pos sent (List.length_pos_iff.mpr hb)
      have hle := t.takes_le sent bytes.length
      rw [if_neg hb]
      dsimp only
      rw [if_neg (by omega), writeAllFd_eq t fuel _ _ (by rw [List.length_drop]; omega),
        List.append_assoc, List.take_append_drop]

/-- The console after more bytes on a stream. -/
def Console.add (c : Console) (stream : ℕ) (bytes : List UInt8) : Console :=
  if stream = FILE_STDOUT then { c with out := c.out ++ bytes }
  else { c with err := c.err ++ bytes }

theorem writeHostConsole_eq (t : Terminal) (c : Console) (stream : ℕ) (bytes : List UInt8) :
    writeHostConsole t c stream bytes = c.add stream bytes := by
  rw [writeHostConsole, Console.add, writeAllFd_eq t _ _ _ le_rfl, writeAllFd_eq t _ _ _ le_rfl]

theorem Console.add_add (c : Console) (stream : ℕ) (xs ys : List UInt8) :
    (c.add stream xs).add stream ys = c.add stream (xs ++ ys) := by
  by_cases h : stream = FILE_STDOUT
  · simp [Console.add, h]
  · simp [Console.add, h]

theorem Console.add_eq_self_iff {c : Console} {stream : ℕ} {bytes : List UInt8} :
    c.add stream bytes = c ↔ bytes = [] := by
  by_cases h : stream = FILE_STDOUT
  · simp [Console.add, h, Console.ext_iff]
  · simp [Console.add, h, Console.ext_iff]

/-- `memcpy` on the host. No result means that the process ends. -/
def handleMemcpy (heap : HostHeap) (e : CpuEngine) : Option (ApiResult × CpuEngine) :=
  let dest := e.regs.rcx
  let src := e.regs.rdx
  let n := e.regs.r8
  if 0 < n ∧ dest ≠ 0 ∧ src ≠ 0 then
    if heap.grants n then
      match e.mem.load src n with
      | none => some (.error, e)
      | some buf =>
        match e.mem.store dest buf with
        | none => some (.error, e)
        | some mem => some ({ e with mem := mem }.returnFromWin64Api dest)
    else none
  else some (e.returnFromWin64Api dest)

/-- The loop of `handle_strlen`. -/
def handleStrlenLoop (m : Flat) (s : ℕ) : ℕ → ℕ → Except Unit ℕ
  | 0, len => .ok len
  | fuel + 1, len =>
    match m.load ((s + len) % 2 ^ 64) 1 with
    | none => .error ()
    | some b =>
      if b = [0] then .ok len
      else
        let len := satAdd len 1
        if 1000000 < len then .ok len else handleStrlenLoop m s fuel len

/-- `strlen` on the host, which gives up after a million bytes. -/
def handleStrlen (e : CpuEngine) : ApiResult × CpuEngine :=
  let s := e.regs.rcx
  if s = 0 then e.returnFromWin64Api 0
  else
    match handleStrlenLoop e.mem s 1000001 0 with
    | .error _ => (.error, e)
    | .ok len => e.returnFromWin64Api len

/-- `fwrite` on the host. The buffer is read whatever the stream is; without one, zeros are
written. -/
def handleFwrite (heap : HostHeap) (t : Terminal) (e : CpuEngine) (c : Console) :
    Option (ApiResult × CpuEngine × Console) :=
  let buf := e.regs.rcx
  let size := e.regs.rdx
  let count := e.regs.r8
  let stream := e.regs.r9
  let done (rax : ℕ) (c : Console) : Option (ApiResult × CpuEngine × Console) :=
    some ((e.returnFromWin64Api rax).1, (e.returnFromWin64Api rax).2, c)
  if size = 0 ∨ count = 0 then done 0 c
  else
    let total := satMul size count
    if heap.grants total then
      match if 0 < total ∧ buf ≠ 0 then e.mem.load buf total else some (List.replicate total 0) with
      | none => some (.error, e, c)
      | some bytes =>
        if stream = FILE_STDOUT ∨ stream = FILE_STDERR then
          done count (writeHostConsole t c stream bytes)
        else done count c
    else none

/-! ### How the handlers end -/

section Ends

variable {heap : HostHeap} {t : Terminal} {e : CpuEngine} {c : Console}

/-- Nothing to copy, or nowhere. -/
def NoCopy (e : CpuEngine) : Prop := e.regs.r8 = 0 ∨ e.regs.rcx = 0 ∨ e.regs.rdx = 0

theorem handleMemcpy_of_noCopy (h : NoCopy e) :
    handleMemcpy heap e = some (e.returnFromWin64Api e.regs.rcx) := by
  have hno : ¬(0 < e.regs.r8 ∧ e.regs.rcx ≠ 0 ∧ e.regs.rdx ≠ 0) := by
    rw [NoCopy] at h
    omega
  rw [handleMemcpy]
  rw [if_neg hno]

/-- A copy that is called for needs a buffer; then it is one of the range or fails. -/
theorem handleMemcpy_of_copy (h : ¬NoCopy e) : handleMemcpy heap e =
    if heap.grants e.regs.r8 then
      match e.mem.load e.regs.rdx e.regs.r8 with
      | none => some (.error, e)
      | some buf =>
        match e.mem.store e.regs.rcx buf with
        | none => some (.error, e)
        | some mem => some ({ e with mem := mem }.returnFromWin64Api e.regs.rcx)
    else none := by
  have hyes : 0 < e.regs.r8 ∧ e.regs.rcx ≠ 0 ∧ e.regs.rdx ≠ 0 := by
    rw [NoCopy] at h
    omega
  rw [handleMemcpy]
  rw [if_pos hyes]

theorem handleMemcpy_of_refused (h : ¬NoCopy e) (hgr : ¬heap.grants e.regs.r8 = true) :
    handleMemcpy heap e = none := by
  rw [handleMemcpy_of_copy h, if_neg hgr]

theorem handleMemcpy_of_granted (h : ¬NoCopy e) (hgr : heap.grants e.regs.r8 = true)
    (hr : e.mem.Rd e.regs.rdx e.regs.r8) (hw : e.mem.Rw e.regs.rcx e.regs.r8) :
    handleMemcpy heap e = some (CpuEngine.returnFromWin64Api
      { e with mem := e.mem.put e.regs.rcx (e.mem.bytes e.regs.rdx e.regs.r8) } e.regs.rcx) := by
  have hstore := Flat.Rw.store (e.mem.bytes e.regs.rdx e.regs.r8) (a := e.regs.rcx) (by
    rw [Flat.length_bytes]
    exact hw)
  rw [handleMemcpy_of_copy h, if_pos hgr, Flat.load_eq hr]
  dsimp only
  rw [hstore]

theorem handleMemcpy_of_denied (h : ¬NoCopy e) (hgr : heap.grants e.regs.r8 = true)
    (hno : ¬(e.mem.Rd e.regs.rdx e.regs.r8 ∧ e.mem.Rw e.regs.rcx e.regs.r8)) :
    handleMemcpy heap e = some (.error, e) := by
  rw [handleMemcpy_of_copy h, if_pos hgr]
  cases hload : e.mem.load e.regs.rdx e.regs.r8 with
  | none => rfl
  | some buf =>
    obtain ⟨hr, rfl⟩ := Flat.load_eq_some_iff.mp hload
    dsimp only
    cases hstore : e.mem.store e.regs.rcx (e.mem.bytes e.regs.rdx e.regs.r8) with
    | none => rfl
    | some m =>
      have hw := (Flat.store_eq_some hstore).2
      rw [Flat.length_bytes] at hw
      exact absurd ⟨hr, hw⟩ hno

theorem handleStrlen_of_null (h : e.regs.rcx = 0) : handleStrlen e = e.returnFromWin64Api 0 := by
  rw [handleStrlen]
  exact if_pos h

theorem handleStrlen_of_ok (h : e.regs.rcx ≠ 0) {v : ℕ}
    (hv : handleStrlenLoop e.mem e.regs.rcx 1000001 0 = .ok v) :
    handleStrlen e = e.returnFromWin64Api v := by
  rw [handleStrlen]
  rw [if_neg h, hv]

theorem handleStrlen_of_error (h : e.regs.rcx ≠ 0) {u : Unit}
    (hv : handleStrlenLoop e.mem e.regs.rcx 1000001 0 = .error u) :
    handleStrlen e = (.error, e) := by
  rw [handleStrlen]
  rw [if_neg h, hv]

/-- How `fwrite` comes back. -/
def fwriteDone (e : CpuEngine) (rax : ℕ) (c : Console) : ApiResult × CpuEngine × Console :=
  ((e.returnFromWin64Api rax).1, (e.returnFromWin64Api rax).2, c)

/-- Nothing to write. -/
def NoWrite (e : CpuEngine) : Prop := e.regs.rdx = 0 ∨ e.regs.r8 = 0

/-- The bytes to write, as many as they are. -/
def fwriteTotal (e : CpuEngine) : ℕ := satMul e.regs.rdx e.regs.r8

theorem fwriteTotal_pos (h : ¬NoWrite e) : 0 < fwriteTotal e := by
  have hmul : e.regs.rdx * e.regs.r8 ≠ 0 :=
    mul_ne_zero (fun h0 => h (.inl h0)) fun h0 => h (.inr h0)
  exact lt_min (Nat.pos_of_ne_zero hmul) (by decide)

theorem handleFwrite_of_noWrite (h : NoWrite e) :
    handleFwrite heap t e c = some (fwriteDone e 0 c) := by
  rw [NoWrite] at h
  rw [handleFwrite]
  dsimp only
  rw [if_pos h]
  rfl

theorem handleFwrite_of_refused (h : ¬NoWrite e) (hgr : ¬heap.grants (fwriteTotal e) = true) :
    handleFwrite heap t e c = none := by
  rw [NoWrite] at h
  rw [fwriteTotal] at hgr
  rw [handleFwrite]
  dsimp only
  rw [if_neg h, if_neg hgr]

theorem handleFwrite_of_denied (h : ¬NoWrite e) (hgr : heap.grants (fwriteTotal e) = true)
    (hb : e.regs.rcx ≠ 0) (hno : ¬e.mem.Rd e.regs.rcx (fwriteTotal e)) :
    handleFwrite heap t e c = some (.error, e, c) := by
  have hpos := fwriteTotal_pos h
  have hload : e.mem.load e.regs.rcx (fwriteTotal e) = none := by
    by_contra hsome
    obtain ⟨bytes, hb⟩ := Option.ne_none_iff_exists'.mp hsome
    exact hno (Flat.load_eq_some_iff.mp hb).1
  rw [NoWrite] at h
  rw [fwriteTotal] at hgr hpos hload
  rw [handleFwrite]
  dsimp only
  rw [if_neg h, if_pos hgr, if_pos ⟨hpos, hb⟩, hload]

/-- With these bytes read, or zeros without a buffer. -/
theorem handleFwrite_of_bytes (h : ¬NoWrite e) (hgr : heap.grants (fwriteTotal e) = true)
    {bytes : List UInt8} (hbytes : e.regs.rcx ≠ 0 ∧ e.mem.Rd e.regs.rcx (fwriteTotal e) ∧
      bytes = e.mem.bytes e.regs.rcx (fwriteTotal e) ∨
      e.regs.rcx = 0 ∧ bytes = List.replicate (fwriteTotal e) 0) :
    handleFwrite heap t e c = some (fwriteDone e e.regs.r8
      (if e.regs.r9 = FILE_STDOUT ∨ e.regs.r9 = FILE_STDERR then c.add e.regs.r9 bytes
      else c)) := by
  have hpos := fwriteTotal_pos h
  have hgot : (if 0 < fwriteTotal e ∧ e.regs.rcx ≠ 0 then e.mem.load e.regs.rcx (fwriteTotal e)
      else some (List.replicate (fwriteTotal e) 0)) = some bytes := by
    rcases hbytes with ⟨hb, hr, rfl⟩ | ⟨hb, rfl⟩
    · rw [if_pos ⟨hpos, hb⟩, Flat.load_eq hr]
    · rw [if_neg (fun hc => hc.2 hb)]
  rw [NoWrite] at h
  rw [fwriteTotal] at hgr hgot
  rw [handleFwrite]
  dsimp only
  rw [if_neg h, if_pos hgr, hgot]
  dsimp only
  by_cases hs : e.regs.r9 = FILE_STDOUT ∨ e.regs.r9 = FILE_STDERR
  · rw [if_pos hs, if_pos hs, writeHostConsole_eq]
    rfl
  · rw [if_neg hs, if_neg hs]
    rfl

end Ends

end Wie
