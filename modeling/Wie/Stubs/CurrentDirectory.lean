import Wie.X86.Machine

/-!
# The current directory in the guest

`GetCurrentDirectoryW` has two bodies. One is a handler of the host. The other is machine code in
the guest, which reads the directory from a blob of memory that is filled once, at the start.

The code differs from the handler in two ways. It is not told when the directory changes. And it
copies four bytes for each unit of two: the operand size of `REP MOVS` is that of the opcode without
a prefix. So it is right only while the directory has the length of the published one, and, where it
copies, if the directory is the published one, the buffer takes twice the path, and what is copied
behind the path was there before.

## Main definitions

* `encodeGetCurrentDirectoryW`, `publishCwdWide` — the code and the blob
* `handleGetCurrentDirectoryW`, `handleSetCurrentDirectoryW` — the handlers
* `CwdCall` — calls of the code
* `CwdCall.Right` — the code does what the handler does
* `CwdCall.Served` — the condition

## Main results

* `CwdCall.bytes_blob` — the blob begins with the count, the units and a zero
* `CwdCall.decode_listing` — the instructions of the code
-/

namespace Wie

open X86

/-! ### Code -/

/-- Put the distance of a short jump, from the byte after it to the target. -/
def patchRel8 (buf : List UInt8) (immAt target : ℕ) : List UInt8 :=
  buf.set immAt (.ofNat (((target : ℤ) - (immAt + 1)) % 256).toNat)

/-- `encode_get_current_directory_w`. -/
def encodeGetCurrentDirectoryW (cwdBlobVa : ℕ) : List UInt8 :=
  let buf := [0x49, 0xb8] ++ toLe 8 cwdBlobVa
  let buf := buf ++ [0x41, 0x8b, 0x00]
  let buf := buf ++ [0x44, 0x8d, 0x48, 0x01]
  let buf := buf ++ [0x48, 0x85, 0xd2]
  let jz1 := buf.length + 1
  let buf := buf ++ [0x74, 0x00]
  let buf := buf ++ [0x48, 0x85, 0xc9]
  let jz2 := buf.length + 1
  let buf := buf ++ [0x74, 0x00]
  let buf := buf ++ [0x48, 0x39, 0xc1]
  let jbe := buf.length + 1
  let buf := buf ++ [0x76, 0x00]
  let buf := buf ++ [0x56, 0x57]
  let buf := buf ++ [0x49, 0x8d, 0x70, 0x04]
  let buf := buf ++ [0x48, 0x89, 0xd7]
  let buf := buf ++ [0x8d, 0x48, 0x01]
  let buf := buf ++ [0xf3, 0xa5]
  let buf := buf ++ [0x5f, 0x5e]
  let buf := buf ++ [0xc3]
  let needSize := buf.length
  let buf := buf ++ [0x44, 0x89, 0xc8]
  let buf := buf ++ [0xc3]
  let buf := patchRel8 buf jz1 needSize
  let buf := patchRel8 buf jz2 needSize
  patchRel8 buf jbe needSize

/-! ### Texts and the blob -/

/-- The UTF-16 units of a character. -/
def utf16Units (c : Char) : List UInt16 :=
  if c.val.toNat < 0x10000 then [.ofNat c.val.toNat]
  else [.ofNat (0xd800 + (c.val.toNat - 0x10000) / 0x400),
    .ofNat (0xdc00 + (c.val.toNat - 0x10000) % 0x400)]

/-- `encode_utf16`. -/
def encodeUtf16 (s : List Char) : List UInt16 := s.flatMap utf16Units

/-- Units as bytes. -/
def unitBytes (us : List UInt16) : List UInt8 := us.flatMap fun u => toLe 2 u.toNat

/-- The most units that are published. -/
def CWD_MAX_CHARS : ℕ := 260

/-- The size of the blob. -/
def CWD_BLOB_SIZE : ℕ := 4 + (CWD_MAX_CHARS + 1) * 2

/-- The units that are published of a directory. -/
def publishedUnits (directory : List Char) : List UInt16 :=
  (encodeUtf16 directory).take CWD_MAX_CHARS

/-- `publish_cwd_wide`: the blob. The units and the zero behind them fit in it. -/
def publishCwdWide (directory : List Char) : List UInt8 :=
  let units := publishedUnits directory
  let blob := toLe 4 units.length ++ unitBytes (units ++ [0])
  blob ++ List.replicate (CWD_BLOB_SIZE - blob.length) 0

/-! ### Handlers -/

/-- What the handlers ask of names and files. -/
structure DirectoryNames where
  /-- `resolve_full_windows_path`, on the units of the current directory. -/
  resolveFullWindowsPath : List UInt16 → List Char → List Char
  /-- `guest_dir_exists`. -/
  guestDirExists : List Char → Bool

/-- What they use of the state of the host. -/
structure CwdState where
  /-- `current_directory_wide`. -/
  currentDirectoryWide : List UInt16
  /-- `last_error`. -/
  lastError : ℕ

/-- The error of a path that is not there. -/
def ERROR_PATH_NOT_FOUND : ℕ := 3

/-- `handle_set_current_directory_w`, on the path its argument points to, if it points to one. -/
def handleSetCurrentDirectoryW (names : DirectoryNames) (path : Option (List Char))
    (state : CwdState) : ℕ × CwdState :=
  match path with
  | none => (0, { state with lastError := ERROR_PATH_NOT_FOUND })
  | some directory =>
    if directory = [] then (0, { state with lastError := ERROR_PATH_NOT_FOUND })
    else
      let full := names.resolveFullWindowsPath state.currentDirectoryWide directory
      if names.guestDirExists full then (1, ⟨encodeUtf16 full, 0⟩)
      else (0, { state with lastError := ERROR_PATH_NOT_FOUND })

/-- The state after calls of `SetCurrentDirectoryW`, from the one in which the directory is
published. -/
def afterCalls (names : DirectoryNames) (directory : List Char)
    (paths : List (Option (List Char))) : CwdState :=
  paths.foldl (fun state path => (handleSetCurrentDirectoryW names path state).2)
    ⟨encodeUtf16 directory, 0⟩

/-- `handle_get_current_directory_w`: the value and the memory, unless the buffer cannot be
written. -/
def handleGetCurrentDirectoryW (state : CwdState) (bufferLength bufferPtr : ℕ) (mem : Flat) :
    Option (ℕ × Flat) :=
  let characterCount := state.currentDirectoryWide.length
  let requiredWithNul := characterCount + 1
  if bufferPtr = 0 ∨ bufferLength = 0 ∨ bufferLength ≤ characterCount then
    some (requiredWithNul, mem)
  else
    (mem.store bufferPtr (unitBytes (state.currentDirectoryWide ++ [0]))).map (characterCount, ·)

/-! ### Calls -/

/-- A call of the code. RCX is the length of the buffer in units and RDX its address. The blob is
the published one; it is in a region of data of its own. The page below the stack pointer belongs to
the callee. -/
structure CwdCall where
  /-- Address of the code. -/
  base : ℕ
  /-- Address of the blob. -/
  cwdBlobVa : ℕ
  /-- The directory that was published. -/
  directory : List Char
  /-- The machine at the entry. -/
  entry : State
  /-- The code is entered at its start. -/
  rip : entry.rip = base
  /-- String instructions go up. -/
  up : entry.flags.df = false
  /-- The code does not reach the top. -/
  code_top : base + 53 ≤ 2 ^ 64
  /-- The blob holds what was published. -/
  blob : entry.mem.load cwdBlobVa CWD_BLOB_SIZE = some (publishCwdWide directory)
  /-- The region of data does not reach the top. -/
  blob_top : cwdBlobVa + 0x800 ≤ 2 ^ 64
  /-- There is room on the stack. -/
  stack_room : 0x1000 ≤ (entry.gpr 4).toNat ∧ (entry.gpr 4).toNat + 8 < 2 ^ 64
  /-- The stack can be used. -/
  stack : entry.mem.Rw ((entry.gpr 4).toNat - 0x1000) (0x1000 + 8)
  /-- The stack is apart from the data. -/
  stack_apart : cwdBlobVa + 0x800 ≤ (entry.gpr 4).toNat - 0x1000 ∨
    (entry.gpr 4).toNat + 8 ≤ cwdBlobVa
  /-- The caller is not in the code. -/
  outside : entry.mem.get (entry.gpr 4).toNat 8 < base ∨
    base + 53 ≤ entry.mem.get (entry.gpr 4).toNat 8
  /-- A buffer can be written and does not reach the top. -/
  buffer : entry.gpr 2 ≠ 0 → entry.mem.Rw (entry.gpr 2).toNat (2 * (entry.gpr 1).toNat) ∧
    (entry.gpr 2).toNat + 2 * (entry.gpr 1).toNat + 0x1000 ≤ 2 ^ 64
  /-- It is apart from the data and from the stack of the callee. -/
  buffer_apart : entry.gpr 2 ≠ 0 →
    ((entry.gpr 2).toNat + 2 * (entry.gpr 1).toNat ≤ cwdBlobVa ∨
        cwdBlobVa + 0x800 ≤ (entry.gpr 2).toNat) ∧
      ((entry.gpr 2).toNat + 2 * (entry.gpr 1).toNat ≤ (entry.gpr 4).toNat - 0x1000 ∨
        (entry.gpr 4).toNat + 8 ≤ (entry.gpr 2).toNat)

namespace CwdCall

variable (c : CwdCall)

/-- The code. -/
def code : List UInt8 := encodeGetCurrentDirectoryW c.cwdBlobVa

/-- `nBufferLength`. -/
def bufferLength : ℕ := (c.entry.gpr 1).toNat

/-- `lpBuffer`. -/
def bufferPtr : ℕ := (c.entry.gpr 2).toNat

/-- The stack pointer at the entry. -/
def rsp : ℕ := (c.entry.gpr 4).toNat

/-- Where the caller goes on. -/
def returnAddress : ℕ := c.entry.mem.get c.rsp 8

/-- An address of the buffer. -/
def InBuffer (x : ℕ) : Prop :=
  c.bufferPtr ≠ 0 ∧ c.bufferPtr ≤ x ∧ x < c.bufferPtr + 2 * c.bufferLength

instance (x : ℕ) : Decidable (c.InBuffer x) := inferInstanceAs (Decidable (_ ∧ _ ∧ _))

/-- What the code may write: the buffer, and two registers saved on the stack. -/
def mayWrite (x : ℕ) : Bool := decide (c.InBuffer x ∨ c.rsp - 16 ≤ x ∧ x < c.rsp)

/-- The entry, with a memory of which nothing else can be written. -/
def confined : State := { c.entry with mem := c.entry.mem.confine c.mayWrite }

/-- The registers a callee gives back as they were, besides the stack pointer. -/
def nonvolatile : List (Fin 16) := [3, 5, 6, 7, 12, 13, 14, 15]

/-- The code does what the handler does: it returns to the caller with the value of the handler and
its units in the buffer, without a write to anything else, and gives back the registers it has
to. -/
def Right (state : CwdState) : Prop :=
  ∃ t value mem, X86.Ends c.code c.base c.confined t ∧
    handleGetCurrentDirectoryW state c.bufferLength c.bufferPtr c.entry.mem = some (value, mem) ∧
    t.rip = c.returnAddress ∧ t.gpr 4 = c.entry.gpr 4 + 8 ∧
    (∀ r ∈ nonvolatile, t.gpr r = c.entry.gpr r) ∧ (t.gpr 0).toNat = value ∧
    ∀ x, c.InBuffer x → t.mem.byte x = mem.byte x

/-- The number of units in the blob. -/
def count : ℕ := (publishedUnits c.directory).length

/-- The condition. The directory is as long as the published one. If the buffer takes it, it is the
published one, the buffer takes twice as much, and the second half of what is copied is what the
buffer holds there. -/
def Served (state : CwdState) : Prop :=
  state.currentDirectoryWide.length = c.count ∧
    (c.bufferPtr ≠ 0 → c.count < c.bufferLength →
      state.currentDirectoryWide = publishedUnits c.directory ∧
      2 * (c.count + 1) ≤ c.bufferLength ∧
      ∀ i, i < 2 * (c.count + 1) →
        c.entry.mem.readable (c.cwdBlobVa + 4 + 2 * (c.count + 1) + i) = true ∧
        c.entry.mem.byte (c.bufferPtr + 2 * (c.count + 1) + i) =
          c.entry.mem.byte (c.cwdBlobVa + 4 + 2 * (c.count + 1) + i))

/-! ### The blob -/

theorem count_le : c.count ≤ CWD_MAX_CHARS := List.length_take_le ..

theorem length_unitBytes (us : List UInt16) : (unitBytes us).length = 2 * us.length := by
  simp [unitBytes, List.length_flatMap, Nat.mul_comm]

theorem bytes_of_load {m : Flat} {a n : ℕ} {bs : List UInt8} (h : m.load a n = some bs) :
    m.bytes a n = bs := by
  rw [Flat.load] at h
  split at h
  · exact Option.some.inj h
  · cases h

/-- The blob begins with the count, the units, and a zero. -/
theorem bytes_blob : c.entry.mem.bytes c.cwdBlobVa 4 = toLe 4 c.count ∧
    c.entry.mem.bytes (c.cwdBlobVa + 4) (2 * (c.count + 1)) =
      unitBytes (publishedUnits c.directory ++ [0]) := by
  have hle : c.count ≤ 260 := c.count_le
  have hall := bytes_of_load c.blob
  have hsplit : CWD_BLOB_SIZE =
      4 + (2 * (c.count + 1) + (CWD_BLOB_SIZE - 4 - 2 * (c.count + 1))) := by
    unfold CWD_BLOB_SIZE CWD_MAX_CHARS
    omega
  rw [hsplit, Flat.bytes_add, Flat.bytes_add, publishCwdWide, List.append_assoc] at hall
  obtain ⟨h1, h2⟩ := List.append_inj hall (by simp)
  obtain ⟨h3, -⟩ := List.append_inj h2 (by
    rw [Flat.length_bytes, length_unitBytes, List.length_append]
    rfl)
  exact ⟨h1, h3⟩

theorem loadLe_count : c.entry.mem.loadLe c.cwdBlobVa 4 = some c.count := by
  have hle : c.count ≤ 260 := c.count_le
  have hload := c.blob
  have hread : ∀ x, c.cwdBlobVa ≤ x → x < c.cwdBlobVa + 4 → c.entry.mem.readable x = true := by
    intro x h1 h2
    have hb : c.entry.mem.loadLe c.cwdBlobVa CWD_BLOB_SIZE =
        some (fromLe (publishCwdWide c.directory)) := by
      rw [Flat.loadLe, hload]
      rfl
    exact Flat.readable_of_loadLe hb h1 (by
      unfold CWD_BLOB_SIZE
      omega)
  rw [Flat.loadLe_eq hread, Flat.get, c.bytes_blob.1, fromLe_toLe_of_lt (by omega)]

/-! ### The code, instruction by instruction -/

theorem toLe_eight (v : ℕ) : ∃ b₀ b₁ b₂ b₃ b₄ b₅ b₆ b₇ : UInt8,
    toLe 8 v = [b₀, b₁, b₂, b₃, b₄, b₅, b₆, b₇] := ⟨_, _, _, _, _, _, _, _, rfl⟩

/-- The bytes of the code, with the jumps patched. -/
theorem encode_eq (va : ℕ) : encodeGetCurrentDirectoryW va = [0x49, 0xb8] ++ toLe 8 va ++
    [0x41, 0x8b, 0x00, 0x44, 0x8d, 0x48, 0x01, 0x48, 0x85, 0xd2, 0x74, 27, 0x48, 0x85, 0xc9,
      0x74, 22, 0x48, 0x39, 0xc1, 0x76, 17, 0x56, 0x57, 0x49, 0x8d, 0x70, 0x04, 0x48, 0x89, 0xd7,
      0x8d, 0x48, 0x01, 0xf3, 0xa5, 0x5f, 0x5e, 0xc3, 0x44, 0x89, 0xc8, 0xc3] := by
  obtain ⟨b₀, b₁, b₂, b₃, b₄, b₅, b₆, b₇, h⟩ := toLe_eight va
  simp only [encodeGetCurrentDirectoryW, h, List.cons_append, List.nil_append, List.length_cons,
    List.length_nil, patchRel8, List.set_cons_succ, List.set_cons_zero, Nat.zero_add, Nat.reduceAdd]
  simp

/-- The instructions of the code. -/
def listing (va : ℕ) : List (ℕ × Instr × ℕ) :=
  [(0, .mov .qword (.reg 8) (.imm (fromLe (toLe 8 va))), 10),
    (10, .mov .dword (.reg 0) (.mem ⟨8, none, 0⟩), 3),
    (13, .lea .dword 9 ⟨0, none, 1⟩, 4),
    (17, .alu .test .qword (.reg 2) (.reg 2), 3),
    (20, .jcc .e 27, 2),
    (22, .alu .test .qword (.reg 1) (.reg 1), 3),
    (25, .jcc .e 22, 2),
    (27, .alu .cmp .qword (.reg 1) (.reg 0), 3),
    (30, .jcc .be 17, 2),
    (32, .push 6, 1),
    (33, .push 7, 1),
    (34, .lea .qword 6 ⟨8, none, 4⟩, 4),
    (38, .mov .qword (.reg 7) (.reg 2), 3),
    (41, .lea .dword 1 ⟨0, none, 1⟩, 3),
    -- the prefix of 16-bit operands is missing
    (44, .repMovs .dword, 2),
    (46, .pop 7, 1),
    (47, .pop 6, 1),
    (48, .ret, 1),
    (49, .mov .dword (.reg 0) (.reg 9), 3),
    (52, .ret, 1)]

theorem length_code : c.code.length = 53 := by
  rw [code, encode_eq]
  simp

theorem decode_listing : ∀ e ∈ listing c.cwdBlobVa, decode (c.code.drop e.1) = some e.2 := by
  obtain ⟨b₀, b₁, b₂, b₃, b₄, b₅, b₆, b₇, h⟩ := toLe_eight c.cwdBlobVa
  rw [code, encode_eq, listing, h]
  simp only [List.forall_mem_cons]
  exact ⟨rfl, rfl, rfl, rfl, rfl, rfl, rfl, rfl, rfl, rfl, rfl, rfl, rfl, rfl, rfl, rfl, rfl, rfl,
    rfl, rfl, fun _ h => absurd h List.not_mem_nil⟩

theorem decode_code {k n : ℕ} {i : Instr}
    (h : (listing c.cwdBlobVa).find? (fun e => e.1 = k) = some (k, i, n)) :
    decode (c.code.drop k) = some (i, n) :=
  c.decode_listing _ (List.mem_of_find?_eq_some h)

end CwdCall

end Wie
