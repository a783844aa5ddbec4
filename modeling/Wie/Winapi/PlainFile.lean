import Wie.Winapi.OpenFile

/-!
# Files as they should be

An abstract model of an open file: its content, and one cursor. Reading, writing, moving the cursor
and asking for the size are done on these alone.

## Main definitions

* `PlainFile`
* `PlainFile.readFile`, `PlainFile.writeFile`, `PlainFile.setFilePointer`, `PlainFile.getFileSize`
* `FileApi`, `PlainFile.call`, `fileCall` — the four calls, on the plain file and on the open file
-/

namespace Wie

open Flat

/-- A file with one cursor. -/
structure PlainFile where
  /-- The content. -/
  content : List UInt8
  /-- Where the next access starts. -/
  cursor : ℕ
  /-- Last error. -/
  lastError : ℕ
deriving DecidableEq

/-- How a call ends, registers and memory, and the file. -/
abbrev PlainHandled := ApiResult × CpuEngine × PlainFile

namespace PlainFile

/-- Return a value to the guest. -/
def returnWith (e : CpuEngine) (p : PlainFile) (value : ℕ) : PlainHandled :=
  let r := e.returnFromWin64Api value
  (r.1, r.2, p)

/-- The transfer of `ReadFile`. -/
def transfer (e : CpuEngine) (p : PlainFile) : PlainHandled :=
  let data := readAt p.content p.cursor e.regs.r8
  match e.mem.store e.regs.rdx data with
  | none => (.error, e, p)
  | some m =>
    let p := { p with cursor := p.cursor + data.length }
    match writeGuestU32 m e.regs.r9 data.length with
    | none => (.error, ⟨e.regs, m⟩, p)
    | some m => returnWith ⟨e.regs, m⟩ { p with lastError := 0 } 1

/-- `ReadFile`. -/
def readFile (e : CpuEngine) (p : PlainFile) : PlainHandled :=
  match writeGuestU32 e.mem e.regs.r9 0 with
  | none => (.error, e, p)
  | some m =>
    if e.regs.rdx = 0 then returnWith ⟨e.regs, m⟩ { p with lastError := ERROR_INVALID_PARAMETER } 0
    else transfer ⟨e.regs, m⟩ p

/-- The file after a write at the cursor. -/
def written (p : PlainFile) (data : List UInt8) : PlainFile :=
  { p with content := writeAt p.content p.cursor data, cursor := p.cursor + data.length }

/-- `WriteFile`. -/
def writeFile (e : CpuEngine) (p : PlainFile) : PlainHandled :=
  match writeGuestU32 e.mem e.regs.r9 0 with
  | none => (.error, e, p)
  | some m =>
    if e.regs.rdx = 0 then returnWith ⟨e.regs, m⟩ { p with lastError := ERROR_INVALID_PARAMETER } 0
    else
      match m.load e.regs.rdx e.regs.r8 with
      | none => (.error, ⟨e.regs, m⟩, p)
      | some data =>
        let p := p.written data
        if e.regs.r8 ≥ 2 ^ 32 then (.error, ⟨e.regs, m⟩, p)
        else
          match writeGuestU32 m e.regs.r9 e.regs.r8 with
          | none => (.error, ⟨e.regs, m⟩, p)
          | some m => returnWith ⟨e.regs, m⟩ { p with lastError := 0 } 1

/-- `SetFilePointer`. -/
def setFilePointer (e : CpuEngine) (p : PlainFile) : PlainHandled :=
  if e.regs.r9 ≠ FILE_BEGIN ∧ e.regs.r9 ≠ FILE_CURRENT ∧ e.regs.r9 ≠ FILE_END then
    returnWith e { p with lastError := ERROR_INVALID_PARAMETER } INVALID_SET_FILE_POINTER
  else
    match seekTarget p.content.length p.cursor e.regs.rdx e.regs.r9 with
    | none => (.error, e, p)
    | some none =>
      returnWith e { p with lastError := ERROR_INVALID_PARAMETER } INVALID_SET_FILE_POINTER
    | some (some cursor) =>
      match writeGuestU32 e.mem e.regs.r8 (cursor / 2 ^ 32) with
      | none => (.error, e, p)
      | some m =>
        returnWith ⟨e.regs, m⟩ { p with cursor := cursor, lastError := 0 } (cursor % 2 ^ 32)

/-- `GetFileSize`. -/
def getFileSize (e : CpuEngine) (p : PlainFile) : PlainHandled :=
  match writeGuestU32 e.mem e.regs.rdx (p.content.length / 2 ^ 32) with
  | none => (.error, e, p)
  | some m => returnWith ⟨e.regs, m⟩ { p with lastError := 0 } (p.content.length % 2 ^ 32)

end PlainFile

/-- The calls on a file. -/
inductive FileApi
  | readFile
  | writeFile
  | setFilePointer
  | getFileSize
deriving DecidableEq

/-- A call on the plain file. -/
def PlainFile.call : FileApi → CpuEngine → PlainFile → PlainHandled
  | .readFile => PlainFile.readFile
  | .writeFile => PlainFile.writeFile
  | .setFilePointer => PlainFile.setFilePointer
  | .getFileSize => PlainFile.getFileSize

/-- A call on the open file. -/
def fileCall : FileApi → CpuEngine → FileState → Handled
  | .readFile => handleReadFile
  | .writeFile => handleWriteFile
  | .setFilePointer => handleSetFilePointer
  | .getFileSize => handleGetFileSize

/-! ### Positions -/

theorem signed32_bounds (n : ℕ) : -2 ^ 31 ≤ signed32 n ∧ signed32 n < 2 ^ 31 := by
  rw [signed32]
  split <;> omega

/-- A position that is reached is a number of 63 bits. -/
theorem seekTarget_lt {size cursor low method c : ℕ}
    (h : seekTarget size cursor low method = some (some c)) : c < 2 ^ 63 := by
  rw [seekTarget] at h
  dsimp only at h
  generalize (if method = FILE_BEGIN then 0 else if method = FILE_CURRENT then cursor else size) =
    base at h
  split_ifs at h with h1 h2 h3
  · cases h
  · obtain rfl := Option.some.inj (Option.some.inj h)
    omega

/-! ### The last error -/

namespace PlainFile

/-- The answers are the same, and the files but for their last error. -/
structure SameAnswer (a b : PlainHandled) : Prop where
  /-- The same end, and the same value. -/
  result : a.1 = b.1
  /-- The same registers and memory. -/
  engine : a.2.1 = b.2.1
  /-- The same content. -/
  content : a.2.2.content = b.2.2.content
  /-- The same cursor. -/
  cursor : a.2.2.cursor = b.2.2.cursor

variable {e : CpuEngine} {p q : PlainFile}

theorem SameAnswer.returnWith (hc : p.content = q.content) (hp : p.cursor = q.cursor) (value : ℕ) :
    SameAnswer (p.returnWith e value) (q.returnWith e value) :=
  ⟨rfl, rfl, hc, hp⟩

/-- **No answer depends on the last error.** -/
theorem call_lastError (api : FileApi) (e : CpuEngine) (p : PlainFile) (n : ℕ) :
    SameAnswer (call api e { p with lastError := n }) (call api e p) := by
  cases api with
  | readFile =>
    show SameAnswer (readFile _ _) (readFile _ _)
    rw [readFile, readFile]
    cases writeGuestU32 e.mem e.regs.r9 0 with
    | none => exact ⟨rfl, rfl, rfl, rfl⟩
    | some m =>
      dsimp only
      split
      · exact ⟨rfl, rfl, rfl, rfl⟩
      rw [transfer, transfer]
      dsimp only
      cases m.store e.regs.rdx (readAt p.content p.cursor e.regs.r8) with
      | none => exact ⟨rfl, rfl, rfl, rfl⟩
      | some m =>
        dsimp only
        cases writeGuestU32 m e.regs.r9 (readAt p.content p.cursor e.regs.r8).length with
        | none => exact ⟨rfl, rfl, rfl, rfl⟩
        | some m => exact ⟨rfl, rfl, rfl, rfl⟩
  | writeFile =>
    show SameAnswer (writeFile _ _) (writeFile _ _)
    rw [writeFile, writeFile]
    cases writeGuestU32 e.mem e.regs.r9 0 with
    | none => exact ⟨rfl, rfl, rfl, rfl⟩
    | some m =>
      dsimp only
      split
      · exact ⟨rfl, rfl, rfl, rfl⟩
      cases m.load e.regs.rdx e.regs.r8 with
      | none => exact ⟨rfl, rfl, rfl, rfl⟩
      | some data =>
        dsimp only
        split
        · exact ⟨rfl, rfl, rfl, rfl⟩
        cases writeGuestU32 m e.regs.r9 e.regs.r8 with
        | none => exact ⟨rfl, rfl, rfl, rfl⟩
        | some m => exact ⟨rfl, rfl, rfl, rfl⟩
  | setFilePointer =>
    show SameAnswer (setFilePointer _ _) (setFilePointer _ _)
    rw [setFilePointer, setFilePointer]
    dsimp only
    split
    · exact ⟨rfl, rfl, rfl, rfl⟩
    cases seekTarget p.content.length p.cursor e.regs.rdx e.regs.r9 with
    | none => exact ⟨rfl, rfl, rfl, rfl⟩
    | some target =>
      cases target with
      | none => exact ⟨rfl, rfl, rfl, rfl⟩
      | some c =>
        dsimp only
        cases writeGuestU32 e.mem e.regs.r8 (c / 2 ^ 32) with
        | none => exact ⟨rfl, rfl, rfl, rfl⟩
        | some m => exact ⟨rfl, rfl, rfl, rfl⟩
  | getFileSize =>
    show SameAnswer (getFileSize _ _) (getFileSize _ _)
    rw [getFileSize, getFileSize]
    dsimp only
    cases writeGuestU32 e.mem e.regs.rdx (p.content.length / 2 ^ 32) with
    | none => exact ⟨rfl, rfl, rfl, rfl⟩
    | some m => exact ⟨rfl, rfl, rfl, rfl⟩

/-- A cursor that is a number of 63 bits stays one. -/
theorem call_cursor_lt {api : FileApi} (hs : p.content.length < 2 ^ 63) (hp : p.cursor < 2 ^ 63)
    (hw : api = .writeFile → e.regs.rdx ≠ 0 → p.cursor + e.regs.r8 < 2 ^ 63) :
    (call api e p).2.2.cursor < 2 ^ 63 := by
  cases api with
  | readFile =>
    show (readFile _ _).2.2.cursor < _
    rw [readFile]
    cases writeGuestU32 e.mem e.regs.r9 0 with
    | none => exact hp
    | some m =>
      dsimp only
      split
      · exact hp
      have hread : p.cursor + (readAt p.content p.cursor e.regs.r8).length < 2 ^ 63 := by
        rw [length_readAt]
        omega
      rw [transfer]
      dsimp only
      cases m.store e.regs.rdx (readAt p.content p.cursor e.regs.r8) with
      | none => exact hp
      | some m =>
        dsimp only
        cases writeGuestU32 m e.regs.r9 (readAt p.content p.cursor e.regs.r8).length with
        | none => exact hread
        | some m => exact hread
  | writeFile =>
    show (writeFile _ _).2.2.cursor < _
    rw [writeFile]
    cases writeGuestU32 e.mem e.regs.r9 0 with
    | none => exact hp
    | some m =>
      dsimp only
      split
      · exact hp
      rename_i hne
      cases hload : m.load e.regs.rdx e.regs.r8 with
      | none => exact hp
      | some data =>
        have hwritten : p.cursor + data.length < 2 ^ 63 := by
          rw [length_of_load hload]
          exact hw rfl hne
        dsimp only
        split
        · exact hwritten
        cases writeGuestU32 m e.regs.r9 e.regs.r8 with
        | none => exact hwritten
        | some m => exact hwritten
  | setFilePointer =>
    show (setFilePointer _ _).2.2.cursor < _
    rw [setFilePointer]
    split
    · exact hp
    cases hseek : seekTarget p.content.length p.cursor e.regs.rdx e.regs.r9 with
    | none => exact hp
    | some target =>
      cases target with
      | none => exact hp
      | some c =>
        have hlt := seekTarget_lt hseek
        dsimp only
        cases writeGuestU32 e.mem e.regs.r8 (c / 2 ^ 32) with
        | none => exact hp
        | some m => exact hlt
  | getFileSize =>
    show (getFileSize _ _).2.2.cursor < _
    rw [getFileSize]
    cases writeGuestU32 e.mem e.regs.rdx (p.content.length / 2 ^ 32) with
    | none => exact hp
    | some m => exact hp

end PlainFile

end Wie
