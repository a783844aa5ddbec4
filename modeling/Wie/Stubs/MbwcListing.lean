import Wie.Stubs.MultiByte
import Wie.X86.Listing

/-!
# Text to units in the guest, instruction by instruction

The bytes that are emitted, with the jumps patched, are the code of a listing.

## Main definitions

* `Mbwc.listing` — the instructions

## Main results

* `Mbwc.writeMbwcImpl_eq` — the code of the listing is what is emitted
* `MbwcCall.decode_code` — the instruction at an offset
-/

namespace Wie

open X86

namespace Mbwc

/-- Registers are saved, and the page is looked at. -/
def classify : List Line :=
  [⟨[0x53], .push 3⟩,
    ⟨[0x56], .push 6⟩,
    ⟨[0x57], .push 7⟩,
    ⟨[0x41, 0x54], .push 12⟩,
    ⟨[0x41, 0x89, 0xca], .mov .dword (.reg 10) (.reg 1)⟩,
    ⟨[0x4d, 0x89, 0xcc], .mov .qword (.reg 12) (.reg 9)⟩,
    -- the code page
    ⟨[0x41, 0x83, 0xfa, 0x04], .alu .cmp .dword (.reg 10) (.imm 4)⟩,
    ⟨[0x0f, 0x82, 0x2c, 0, 0, 0], .jcc .b 44⟩,
    ⟨[0x41, 0x81, 0xfa, 0xe4, 0x04, 0, 0], .alu .cmp .dword (.reg 10) (.imm 1252)⟩,
    ⟨[0x0f, 0x84, 0x1f, 0, 0, 0], .jcc .e 31⟩,
    ⟨[0x41, 0x81, 0xfa, 0xb5, 0x01, 0, 0], .alu .cmp .dword (.reg 10) (.imm 437)⟩,
    ⟨[0x0f, 0x84, 0x12, 0, 0, 0], .jcc .e 18⟩,
    ⟨[0x41, 0x81, 0xfa, 0xe9, 0xfd, 0, 0], .alu .cmp .dword (.reg 10) (.imm 65001)⟩,
    ⟨[0x0f, 0x84, 0x0a, 0, 0, 0], .jcc .e 10⟩,
    ⟨[0xe9, 0xc4, 0, 0, 0], .jmp 196⟩,
    -- one byte for each unit
    ⟨[0x41, 0xb3, 0], .mov .byte (.reg 11) (.imm 0)⟩,
    ⟨[0xeb, 0x03], .jmp 3⟩,
    -- UTF-8
    ⟨[0x41, 0xb3, 0x01], .mov .byte (.reg 11) (.imm 1)⟩]

/-- The length of the source. -/
def measure : List Line :=
  [⟨[0x4c, 0x89, 0xc6], .mov .qword (.reg 6) (.reg 8)⟩,
    ⟨[0x48, 0x85, 0xf6], .alu .test .qword (.reg 6) (.reg 6)⟩,
    ⟨[0x0f, 0x84, 0xa8, 0, 0, 0], .jcc .e 168⟩,
    ⟨[0x41, 0x83, 0xfc, 0xff], .alu .cmp .dword (.reg 12) (.imm (-1))⟩,
    ⟨[0x0f, 0x85, 0x1f, 0, 0, 0], .jcc .ne 31⟩,
    -- up to a zero
    ⟨[0x31, 0xdb], .alu .xor .dword (.reg 3) (.reg 3)⟩,
    ⟨[0x0f, 0xb6, 0x04, 0x1e], .movzx 0 (.mem ⟨6, some 3, 0⟩)⟩,
    ⟨[0x48, 0xff, 0xc3], .inc .qword (.reg 3)⟩,
    ⟨[0x84, 0xc0], .alu .test .byte (.reg 0) (.reg 0)⟩,
    ⟨[0x75, 0xf5], .jcc .ne (-11)⟩,
    ⟨[0x48, 0x81, 0xfb, 0, 0x80, 0, 0], .alu .cmp .qword (.reg 3) (.imm 32768)⟩,
    ⟨[0x0f, 0x87, 0x8c, 0, 0, 0], .jcc .a 140⟩,
    ⟨[0xe9, 0x14, 0, 0, 0], .jmp 20⟩,
    -- so many bytes
    ⟨[0x45, 0x85, 0xe4], .alu .test .dword (.reg 12) (.reg 12)⟩,
    ⟨[0x0f, 0x88, 0x7e, 0, 0, 0], .jcc .s 126⟩,
    ⟨[0x44, 0x89, 0xe3], .mov .dword (.reg 3) (.reg 12)⟩,
    ⟨[0x85, 0xdb], .alu .test .dword (.reg 3) (.reg 3)⟩,
    ⟨[0x0f, 0x84, 0x6b, 0, 0, 0], .jcc .e 107⟩]

/-- Whether all bytes are ASCII. -/
def checkAscii : List Line :=
  [⟨[0x45, 0x84, 0xdb], .alu .test .byte (.reg 11) (.reg 11)⟩,
    ⟨[0x0f, 0x84, 0x21, 0, 0, 0], .jcc .e 33⟩,
    ⟨[0x51], .push 1⟩,
    ⟨[0x48, 0x89, 0xd9], .mov .qword (.reg 1) (.reg 3)⟩,
    ⟨[0x48, 0x89, 0xf0], .mov .qword (.reg 0) (.reg 6)⟩,
    ⟨[0xf6, 0, 0x80], .alu .test .byte (.mem ⟨0, none, 0⟩) (.imm 128)⟩,
    ⟨[0x0f, 0x85, 0x0b, 0, 0, 0], .jcc .ne 11⟩,
    ⟨[0x48, 0xff, 0xc0], .inc .qword (.reg 0)⟩,
    ⟨[0x48, 0xff, 0xc9], .dec .qword (.reg 1)⟩,
    ⟨[0x75, 0xef], .jcc .ne (-17)⟩,
    ⟨[0x59], .pop 1⟩,
    ⟨[0xeb, 0x06], .jmp 6⟩,
    ⟨[0x59], .pop 1⟩,
    ⟨[0xe9, 0x49, 0, 0, 0], .jmp 73⟩]

/-- The destination, and the units. -/
def convert : List Line :=
  [⟨[0x4c, 0x8b, 0x4c, 0x24, 0x48], .mov .qword (.reg 9) (.mem ⟨4, none, 72⟩)⟩,
    ⟨[0x44, 0x8b, 0x5c, 0x24, 0x50], .mov .dword (.reg 11) (.mem ⟨4, none, 80⟩)⟩,
    ⟨[0x4d, 0x85, 0xc9], .alu .test .qword (.reg 9) (.reg 9)⟩,
    ⟨[0x0f, 0x84, 0x26, 0, 0, 0], .jcc .e 38⟩,
    ⟨[0x45, 0x85, 0xdb], .alu .test .dword (.reg 11) (.reg 11)⟩,
    ⟨[0x0f, 0x84, 0x1d, 0, 0, 0], .jcc .e 29⟩,
    ⟨[0x44, 0x39, 0xdb], .alu .cmp .dword (.reg 3) (.reg 11)⟩,
    ⟨[0x0f, 0x87, 0x1c, 0, 0, 0], .jcc .a 28⟩,
    -- the units
    ⟨[0x48, 0x89, 0xd9], .mov .qword (.reg 1) (.reg 3)⟩,
    ⟨[0x4c, 0x89, 0xcf], .mov .qword (.reg 7) (.reg 9)⟩,
    ⟨[0xfc], .cld⟩,
    ⟨[0x0f, 0xb6, 0x06], .movzx 0 (.mem ⟨6, none, 0⟩)⟩,
    ⟨[0x48, 0xff, 0xc6], .inc .qword (.reg 6)⟩,
    ⟨[0x66, 0xab], .stos .word⟩,
    ⟨[0x48, 0xff, 0xc9], .dec .qword (.reg 1)⟩,
    ⟨[0x75, 0xf3], .jcc .ne (-13)⟩]

/-- The three ways out. -/
def leave : List Line :=
  [ -- the length
    ⟨[0x89, 0xd8], .mov .dword (.reg 0) (.reg 3)⟩,
    ⟨[0x41, 0x5c], .pop 12⟩,
    ⟨[0x5f], .pop 7⟩,
    ⟨[0x5e], .pop 6⟩,
    ⟨[0x5b], .pop 3⟩,
    ⟨[0xc3], .ret⟩,
    -- zero
    ⟨[0x31, 0xc0], .alu .xor .dword (.reg 0) (.reg 0)⟩,
    ⟨[0x41, 0x5c], .pop 12⟩,
    ⟨[0x5f], .pop 7⟩,
    ⟨[0x5e], .pop 6⟩,
    ⟨[0x5b], .pop 3⟩,
    ⟨[0xc3], .ret⟩,
    -- the fallback
    ⟨[0x44, 0x89, 0xd1], .mov .dword (.reg 1) (.reg 10)⟩,
    ⟨[0x4d, 0x89, 0xe1], .mov .qword (.reg 9) (.reg 12)⟩,
    ⟨[0x41, 0x5c], .pop 12⟩,
    ⟨[0x5f], .pop 7⟩,
    ⟨[0x5e], .pop 6⟩,
    ⟨[0x5b], .pop 3⟩]

/-- The instructions up to the address of the fallback. -/
def lines : List Line := classify ++ measure ++ checkAscii ++ convert ++ leave

/-- The instructions. -/
def listing (fallbackVa : ℕ) : List Line :=
  lines ++ [⟨[0x48, 0xb8] ++ toLe 8 fallbackVa,
      .mov .qword (.reg 0) (.imm (fromLe (toLe 8 fallbackVa)))⟩,
    ⟨[0xff, 0xe0], .jmpTo (.reg 0)⟩]

/-! ### Patches -/

/-- Where the distance of a jump is. -/
def Fixup.fits (n : ℕ) : Fixup → Bool
  | .near immAt _ _ => decide (immAt + 4 ≤ n)
  | .short immAt nextIp target =>
    decide (immAt < n ∧ (nextIp : ℤ) ≤ target + 128 ∧ (target : ℤ) < nextIp + 128)

variable {code rest : List UInt8}

theorem Fixup.length_patch (f : Fixup) (h : f.fits code.length = true) :
    (f.patch code).length = code.length := by
  cases f with
  | near immAt nextIp target =>
    have hle : immAt + 4 ≤ code.length := of_decide_eq_true h
    rw [patch, patchRel32, List.length_append, List.length_append, List.length_take,
      List.length_drop, length_toLe]
    omega
  | short immAt nextIp target => exact List.length_set

/-- A patch in the first part leaves the second alone. -/
theorem Fixup.patch_append (f : Fixup) (h : f.fits code.length = true) :
    f.patch (code ++ rest) = f.patch code ++ rest := by
  cases f with
  | near immAt nextIp target =>
    have hle : immAt + 4 ≤ code.length := of_decide_eq_true h
    rw [patch, patch, patchRel32, patchRel32, List.take_append_of_le_length (by omega),
      List.drop_append_of_le_length hle, List.append_assoc, List.append_assoc, List.append_assoc]
  | short immAt nextIp target =>
    have hlt : immAt < code.length := (of_decide_eq_true h).1
    exact List.set_append_left _ _ hlt

theorem foldl_patch_append (fs : List Fixup) : ∀ {code : List UInt8},
    (∀ f ∈ fs, f.fits code.length = true) →
      fs.foldl Fixup.patch (code ++ rest) = fs.foldl Fixup.patch code ++ rest := by
  induction fs with
  | nil => exact fun _ => rfl
  | cons f fs ih =>
    intro code h
    have hf := h f (.head _)
    rw [List.foldl_cons, List.foldl_cons, f.patch_append hf]
    exact ih fun f' hf' => by
      rw [f.length_patch hf]
      exact h f' (.tail _ hf')

/-- **The code of the listing is what is emitted.** -/
theorem writeMbwcImpl_eq (fallbackVa : ℕ) :
    writeMbwcImpl fallbackVa = assemble (listing fallbackVa) := by
  have hfits : ∀ f ∈ body.2, f.fits body.1.length = true := by decide +kernel
  have hbody : body.2.foldl Fixup.patch body.1 = assemble lines ++ [0x48, 0xb8] := by
    decide +kernel
  rw [writeMbwcImpl, foldl_patch_append _ hfits, hbody, listing, assemble, assemble,
    List.flatMap_append]
  simp only [List.append_assoc, List.cons_append, List.nil_append, List.flatMap_cons,
    List.flatMap_nil, List.append_nil]

end Mbwc

namespace MbwcCall

variable (c : MbwcCall)

theorem length_code : c.code.length = 284 := by
  have hlen : (assemble Mbwc.lines).length = 272 := by decide +kernel
  rw [code, Mbwc.writeMbwcImpl_eq, Mbwc.listing, assemble, List.flatMap_append, List.length_append,
    ← assemble, hlen]
  simp only [List.cons_append, List.nil_append, List.flatMap_cons, List.flatMap_nil,
    List.append_nil, List.length_cons, List.length_append, length_toLe, List.length_nil, zero_add,
    Nat.reduceAdd]

/-- Every line of the listing means what it says. -/
theorem listing_ok (fallbackVa : ℕ) : ∀ l ∈ Mbwc.listing fallbackVa, l.Ok := by
  have hlines : ∀ l ∈ Mbwc.lines, l.Ok := by decide +kernel
  obtain ⟨b₀, b₁, b₂, b₃, b₄, b₅, b₆, b₇, h⟩ := CwdCall.toLe_eight fallbackVa
  intro l hl
  rcases List.mem_append.mp hl with hl | hl
  · exact hlines l hl
  · rw [h, List.mem_cons, List.mem_singleton] at hl
    rcases hl with rfl | rfl <;> rfl

/-- The instruction at an offset. -/
theorem decode_code {k n : ℕ} {i : Instr}
    (h : (lineAt (Mbwc.listing c.fallbackVa) k).map (fun l => (l.instr, l.bytes.length)) =
      some (i, n)) : decode (c.code.drop k) = some (i, n) := by
  obtain ⟨l, hl, he⟩ := Option.map_eq_some_iff.mp h
  rw [code, Mbwc.writeMbwcImpl_eq, decode_assemble (listing_ok c.fallbackVa) hl, ← he]

end MbwcCall

end Wie
