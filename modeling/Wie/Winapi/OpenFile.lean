import Mathlib.Data.List.AList
import Mathlib.Logic.Function.Basic
import Wie.Lib.ByteFile
import Wie.Winapi.Engine

/-!
# Open files

An open file has a cursor, and either a buffer with its whole content or, when it is streamed, a
file of the host behind it. For files with a buffer the guest is given a slot in a table and a
mirror of the content, so that it can read without a call; the host copies cursor, size and content
to the guest at some calls and takes the cursor back at others.

Handles of the console take a path of their own in each handler, which is left out here.

## Main definitions

* `OpenGuestFile`, `FileState`
* `registerOpenFile`, `unregisterOpenFile`, `syncSlotFromHost`, `syncHostCursorFromGuest`
* `maybePromote`
* `handleReadFile`, `handleWriteFile`, `handleSetFilePointer`, `handleGetFileSize`
-/

namespace Wie

/-- `FILE_BEGIN`. -/
def FILE_BEGIN : ℕ := 0

/-- `FILE_CURRENT`. -/
def FILE_CURRENT : ℕ := 1

/-- `FILE_END`. -/
def FILE_END : ℕ := 2

/-- `INVALID_SET_FILE_POINTER`. -/
def INVALID_SET_FILE_POINTER : ℕ := 0xffffffff

/-- Size from which files are streamed. -/
def BUFFER_SIZE_THRESHOLD : ℕ := 16 * 1024 * 1024

/-- Slots of the guest table. -/
def GUEST_IO_MAX_SLOTS : ℕ := 128

/-- Bytes of a slot: handle, address of the mirror, size, cursor and flags. -/
def GUEST_IO_SLOT_SIZE : ℕ := 40

/-- Mark of a slot in use. -/
def GUEST_IO_FLAG_VALID : ℕ := 1

/-- A file opened by the guest. -/
structure OpenGuestFile where
  /-- Path it was opened with. -/
  path : String
  /-- The content, or nothing when it is streamed. -/
  bytes : List UInt8
  /-- Where the next access starts. -/
  cursor : ℕ
  /-- The file of the host behind it. -/
  hostPath : Option String
  /-- Whether accesses go to the file of the host. -/
  streaming : Bool
  /-- Address of the mirror. -/
  guestDataVa : Option ℕ
  /-- Index of the slot. -/
  guestSlotIndex : Option ℕ
deriving DecidableEq

/-- Where the guest table and the mirrors lie. -/
structure GuestIoConfig where
  /-- The table. -/
  tableVa : ℕ
  /-- The mirrors. -/
  fileDataBase : ℕ
  /-- Size of the mirrors. -/
  fileDataSize : ℕ
deriving DecidableEq

/-- The part of the WinAPI state that files live in, with the files of the host. -/
structure FileState where
  /-- Open files by handle. -/
  openFiles : AList fun _ : ℕ => OpenGuestFile
  /-- Next handle. -/
  nextFileHandle : ℕ
  /-- The guest table, when it is installed. -/
  guestIo : Option GuestIoConfig
  /-- Address of the next mirror. -/
  guestFileDataNext : ℕ
  /-- Files without a host file, by guest path. -/
  virtualFiles : List (String × List UInt8)
  /-- Last error. -/
  lastError : ℕ
  /-- Files of the host. -/
  host : String → Option (List UInt8)

/-- `host_read_at`; the read is not cut short. -/
def hostReadAt (host : String → Option (List UInt8)) (path : String) (off n : ℕ) :
    Option (List UInt8) :=
  (host path).map fun c => readAt c off n

/-- `OpenGuestFile::size`. -/
def OpenGuestFile.size (host : String → Option (List UInt8)) (f : OpenGuestFile) : ℕ :=
  if f.streaming then ((f.hostPath.bind host).map List.length).getD 0 else f.bytes.length

/-- Move the cursor. -/
def OpenGuestFile.withCursor (f : OpenGuestFile) (cursor : ℕ) : OpenGuestFile :=
  { f with cursor := cursor }

/-- Replace the content of the buffer. -/
def OpenGuestFile.withBytes (f : OpenGuestFile) (bytes : List UInt8) : OpenGuestFile :=
  { f with bytes := bytes }

/-- Replace an open file. -/
def FileState.setFile (s : FileState) (handle : ℕ) (f : OpenGuestFile) : FileState :=
  { s with openFiles := s.openFiles.insert handle f }

/-- Replace a file of the host. -/
def FileState.setHost (s : FileState) (path : String) (content : List UInt8) : FileState :=
  { s with host := Function.update s.host path (some content) }

/-- `host_write_at`: the file is created if there is none. -/
def FileState.hostWriteAt (s : FileState) (path : String) (off : ℕ) (data : List UInt8) :
    FileState :=
  s.setHost path (writeAt ((s.host path).getD []) off data)

theorem FileState.lookup_setFile (s : FileState) (handle k : ℕ) (f : OpenGuestFile) :
    (s.setFile handle f).openFiles.lookup k =
      if k = handle then some f else s.openFiles.lookup k := by
  by_cases hk : k = handle
  · subst hk
    rw [if_pos rfl]
    exact AList.lookup_insert _
  · rw [if_neg hk]
    exact AList.lookup_insert_ne hk

/-- Only the last replacement counts. -/
theorem FileState.lookup_setFile_of {s t : FileState} {handle : ℕ} {f : OpenGuestFile}
    (hs : ∀ k, s.openFiles.lookup k = if k = handle then some f else t.openFiles.lookup k)
    (g : OpenGuestFile) (k : ℕ) : (s.setFile handle g).openFiles.lookup k =
      if k = handle then some g else t.openFiles.lookup k := by
  rw [lookup_setFile, hs]
  split <;> rfl

/-- `allocate_open_file_ex`: the handle, unless handles have run out. -/
def allocateOpenFileEx (isMainModulePath : String → Bool) (s : FileState) (path : String)
    (bytes : List UInt8) (hostPath : Option String) (forceStream : Bool) :
    Option (ℕ × FileState) :=
  let handle := s.nextFileHandle
  (checkedAdd s.nextFileHandle 1).map fun next =>
    let size :=
      if forceStream then ((hostPath.bind s.host).map List.length).getD 0 else bytes.length
    let streaming := forceStream ||
      (hostPath.isSome && decide (size > BUFFER_SIZE_THRESHOLD) && !isMainModulePath path)
    let f : OpenGuestFile :=
      { path := path
        bytes := if streaming then [] else bytes
        cursor := 0
        hostPath := hostPath
        streaming := streaming
        guestDataVa := none
        guestSlotIndex := none }
    (handle, { s with nextFileHandle := next }.setFile handle f)

/-! ### The guest table -/

/-- `slot_va_at`. -/
def slotVaAt (tableVa index : ℕ) : Option ℕ := checkedAdd tableVa (index * GUEST_IO_SLOT_SIZE)

/-- `va.wrapping_add(offset)`. -/
def wrappingAdd (va offset : ℕ) : ℕ := (va + offset) % 2 ^ 64

/-- The first of the slots that is free or has the handle. -/
def findSlot (m : Flat) (tableVa handle : ℕ) : List ℕ → Except Unit (Option ℕ)
  | [] => .ok none
  | i :: is =>
    match slotVaAt tableVa i with
    | none => findSlot m tableVa handle is
    | some slotVa =>
      match m.loadLe slotVa 8 with
      | none => .error ()
      | some existing =>
        if existing = 0 ∨ existing = handle then .ok (some i) else findSlot m tableVa handle is

/-- A file with a mirror and a slot. -/
def OpenGuestFile.withMirror (f : OpenGuestFile) (dataVa i : ℕ) : OpenGuestFile :=
  { f with guestDataVa := some dataVa, guestSlotIndex := some i }

/-- Move the address of the next mirror. -/
def FileState.withDataNext (s : FileState) (next : ℕ) : FileState :=
  { s with guestFileDataNext := next }

/-- `register_open_file`. -/
def registerOpenFile (m : Flat) (s : FileState) (handle : ℕ) :
    Except Unit Unit × Flat × FileState :=
  match s.guestIo, s.openFiles.lookup handle with
  | some cfg, some f =>
    if f.streaming ∨ f.bytes.length = 0 then (.ok (), m, s)
    else
      let size := f.bytes.length
      let alignedSize := wrappingAdd size 15 / 16 * 16
      let dataVa := s.guestFileDataNext
      match checkedAdd cfg.fileDataBase cfg.fileDataSize with
      | none => (.error (), m, s)
      | some fileEnd =>
        match checkedAdd dataVa (max alignedSize 16) with
        | none => (.ok (), m, s)
        | some newNext =>
          if newNext > fileEnd then (.ok (), m, s)
          else
            match m.store dataVa f.bytes with
            | none => (.error (), m, s)
            | some m =>
              match findSlot m cfg.tableVa handle (List.range GUEST_IO_MAX_SLOTS) with
              | .error () => (.error (), m, s)
              | .ok none => (.ok (), m, s)
              | .ok (some i) =>
                match slotVaAt cfg.tableVa i with
                | none => (.ok (), m, s)
                | some slotVa =>
                  match Flat.storeAll [(slotVa, 8, handle), (wrappingAdd slotVa 8, 8, dataVa),
                      (wrappingAdd slotVa 16, 8, size), (wrappingAdd slotVa 24, 8, 0),
                      (wrappingAdd slotVa 32, 8, GUEST_IO_FLAG_VALID)] m with
                  | (.error (), m) => (.error (), m, s)
                  | (.ok (), m) =>
                    (.ok (), m, (s.withDataNext newNext).setFile handle (f.withMirror dataVa i))
  | _, _ => (.ok (), m, s)

/-- Clear the first of the slots that has the handle. -/
def clearSlot (m : Flat) (tableVa handle : ℕ) : List ℕ → Except Unit Flat
  | [] => .ok m
  | i :: is =>
    match slotVaAt tableVa i with
    | none => clearSlot m tableVa handle is
    | some slotVa =>
      match m.loadLe slotVa 8 with
      | none => .error ()
      | some existing =>
        if existing = handle then
          match m.store slotVa (List.replicate GUEST_IO_SLOT_SIZE 0) with
          | none => .error ()
          | some m => .ok m
        else clearSlot m tableVa handle is

/-- `unregister_open_file`; its callers ignore an error. -/
def unregisterOpenFile (m : Flat) (s : FileState) (handle : ℕ) : Flat × FileState :=
  match s.guestIo with
  | none => (m, s)
  | some cfg =>
    match clearSlot m cfg.tableVa handle (List.range GUEST_IO_MAX_SLOTS) with
    | .error () => (m, s)
    | .ok m =>
      match s.openFiles.lookup handle with
      | none => (m, s)
      | some f => (m, s.setFile handle { f with guestDataVa := none, guestSlotIndex := none })

/-- The address of the slot of a file, when it has one. -/
def OpenGuestFile.slotVa (f : OpenGuestFile) (guestIo : Option GuestIoConfig) : Option ℕ :=
  f.guestSlotIndex.bind fun i => guestIo.bind fun cfg => slotVaAt cfg.tableVa i

/-- The file and the address of its slot. -/
def FileState.slot (s : FileState) (handle : ℕ) : Option (OpenGuestFile × ℕ) :=
  (s.openFiles.lookup handle).bind fun f => (f.slotVa s.guestIo).map fun slotVa => (f, slotVa)

/-- `sync_slot_from_host`; its callers ignore an error. -/
def syncSlotFromHost (m : Flat) (s : FileState) (handle : ℕ) : Flat :=
  match s.slot handle with
  | none => m
  | some (f, slotVa) =>
    match Flat.storeAll [(wrappingAdd slotVa 16, 8, f.bytes.length),
        (wrappingAdd slotVa 24, 8, f.cursor)] m with
    | (.error (), m) => m
    | (.ok (), m) =>
      match f.guestDataVa with
      | none => m
      | some dataVa => if f.bytes = [] then m else (m.store dataVa f.bytes).getD m

/-- `sync_host_cursor_from_guest`; its callers ignore an error. -/
def syncHostCursorFromGuest (m : Flat) (s : FileState) (handle : ℕ) : FileState :=
  match s.slot handle with
  | none => s
  | some (f, slotVa) =>
    match m.loadLe (wrappingAdd slotVa 24) 8 with
    | none => s
    | some cursor => s.setFile handle (f.withCursor cursor)

/-! ### Promotion and closing -/

/-- Write the buffer to the host and stream from there. -/
def promote (m : Flat) (s : FileState) (handle : ℕ) : Flat × FileState :=
  match s.openFiles.lookup handle with
  | none => (m, s)
  | some f =>
    match f.streaming, f.hostPath with
    | false, some hostPath =>
      let s := s.setHost hostPath f.bytes
      let (m, s) := unregisterOpenFile m s handle
      match s.openFiles.lookup handle with
      | none => (m, s)
      | some f => (m, s.setFile handle { f with bytes := [], streaming := true })
    | _, _ => (m, s)

/-- `maybe_promote_open_file_to_streaming`. -/
def maybePromote (m : Flat) (s : FileState) (handle : ℕ) : Flat × FileState :=
  match s.openFiles.lookup handle with
  | none => (m, s)
  | some f =>
    if f.bytes.length ≤ BUFFER_SIZE_THRESHOLD then (m, s) else promote m s handle

/-- What a handler leaves: how it ends, registers and memory, and the state. -/
abbrev Handled := ApiResult × CpuEngine × FileState

/-- Return a value to the guest. -/
def returnWith (e : CpuEngine) (s : FileState) (value : ℕ) : Handled :=
  let r := e.returnFromWin64Api value
  (r.1, r.2, s)

/-- `write_guest_u32`, for a pointer that may be null. -/
def writeGuestU32 (m : Flat) (ptr value : ℕ) : Option Flat :=
  if ptr = 0 then some m else m.storeLe ptr 4 value

/-- The streaming path of `handle_read_file`. -/
def readStreaming (e : CpuEngine) (s : FileState) (handle : ℕ) (f : OpenGuestFile) : Handled :=
  match f.hostPath with
  | none => returnWith e { s with lastError := ERROR_INVALID_HANDLE } 0
  | some hostPath =>
    -- a buffer cannot be larger
    if e.regs.r8 ≥ 2 ^ 63 then (.error, e, s)
    else
      let data := (hostReadAt s.host hostPath f.cursor e.regs.r8).getD []
      match e.mem.store e.regs.rdx data with
      | none => (.error, e, s)
      | some m =>
        let s := s.setFile handle (f.withCursor (satAdd f.cursor data.length))
        let count := if data.length < 2 ^ 32 then data.length else 0
        match writeGuestU32 m e.regs.r9 count with
        | none => (.error, { e with mem := m }, s)
        | some m => returnWith { e with mem := m } { s with lastError := 0 } 1

/-- The buffered path of `handle_read_file`. -/
def readBuffered (e : CpuEngine) (s : FileState) (handle : ℕ) (f : OpenGuestFile) : Handled :=
  let readLen := min e.regs.r8 (f.bytes.length - f.cursor)
  match checkedAdd f.cursor readLen with
  | none => (.error, e, s)
  | some stop =>
    let s := s.setFile handle (f.withCursor stop)
    -- `bytes.get(start..end)`
    if stop > f.bytes.length then (.error, e, s)
    else
      let data := readAt f.bytes f.cursor readLen
      match e.mem.store e.regs.rdx data with
      | none => (.error, e, s)
      | some m =>
        if data.length ≥ 2 ^ 32 then (.error, { e with mem := m }, s)
        else
          match writeGuestU32 m e.regs.r9 data.length with
          | none => (.error, { e with mem := m }, s)
          | some m =>
            let s := { s with lastError := 0 }
            returnWith { e with mem := syncSlotFromHost m s handle } s 1

/-- `handle_read_file`. -/
def handleReadFile (e : CpuEngine) (s : FileState) : Handled :=
  match writeGuestU32 e.mem e.regs.r9 0 with
  | none => (.error, e, s)
  | some m =>
    let e := { e with mem := m }
    if e.regs.rdx = 0 then returnWith e { s with lastError := ERROR_INVALID_PARAMETER } 0
    else
      let s := syncHostCursorFromGuest e.mem s e.regs.rcx
      match s.openFiles.lookup e.regs.rcx with
      | none => returnWith e { s with lastError := ERROR_INVALID_HANDLE } 0
      | some f =>
        if f.streaming then readStreaming e s e.regs.rcx f else readBuffered e s e.regs.rcx f

/-- The content of a buffer after a write; nothing when the end cannot be addressed. -/
def writeBuffered (bytes : List UInt8) (cursor : ℕ) (data : List UInt8) : Option (List UInt8) :=
  -- a buffer cannot be larger
  if cursor + data.length ≥ 2 ^ 63 then none
  else
    let stop := cursor + data.length
    some (copyInto (if bytes.length < stop then resize bytes stop else bytes) cursor data)

theorem length_writeBuffered {bytes data bytes' : List UInt8} {cursor : ℕ}
    (h : writeBuffered bytes cursor data = some bytes') :
    bytes'.length = max bytes.length (cursor + data.length) ∧ cursor + data.length < 2 ^ 63 := by
  rw [writeBuffered] at h
  split at h
  · cases h
  · obtain rfl := Option.some.inj h
    rw [length_copyInto]
    · split
      · rw [length_resize]
        omega
      · omega
    · split
      · exact (length_resize ..).ge
      · omega

/-- What `handle_write_file` does to the file. -/
def writeOpenFile (m : Flat) (s : FileState) (handle : ℕ) (f : OpenGuestFile) (data : List UInt8) :
    Except Unit Unit × Flat × FileState :=
  if f.streaming then
    match f.hostPath with
    | none => (.error (), m, s)
    | some hostPath =>
      let s := s.hostWriteAt hostPath f.cursor data
      match checkedAdd f.cursor data.length with
      | none => (.error (), m, s)
      | some cursor => (.ok (), m, s.setFile handle (f.withCursor cursor))
  else
    match writeBuffered f.bytes f.cursor data with
    | none => (.error (), m, s)
    | some bytes =>
      let f := (f.withBytes bytes).withCursor (f.cursor + data.length)
      let r := maybePromote m (s.setFile handle f) handle
      (.ok (), r.1, r.2)

/-- `handle_write_file`. -/
def handleWriteFile (e : CpuEngine) (s : FileState) : Handled :=
  match writeGuestU32 e.mem e.regs.r9 0 with
  | none => (.error, e, s)
  | some m =>
    let e := { e with mem := m }
    if e.regs.rdx = 0 then returnWith e { s with lastError := ERROR_INVALID_PARAMETER } 0
    else
      match s.openFiles.lookup e.regs.rcx with
      | none => returnWith e { s with lastError := ERROR_INVALID_HANDLE } 0
      | some f =>
        match e.mem.load e.regs.rdx e.regs.r8 with
        | none => (.error, e, s)
        | some data =>
          match writeOpenFile e.mem s e.regs.rcx f data with
          | (.error (), m, s) => (.error, { e with mem := m }, s)
          | (.ok (), m, s) =>
            let e := { e with mem := m }
            if e.regs.r8 ≥ 2 ^ 32 then (.error, e, s)
            else
              match writeGuestU32 e.mem e.regs.r9 e.regs.r8 with
              | none => (.error, e, s)
              | some m => returnWith { e with mem := m } { s with lastError := 0 } 1

/-- A 32-bit number as a signed one. -/
def signed32 (n : ℕ) : ℤ :=
  let low : ℕ := n % 2 ^ 32
  if low < 2 ^ 31 then (low : ℤ) else (low : ℤ) - 2 ^ 32

/-- Where `SetFilePointer` goes: nothing on overflow, else the position, if there is one. -/
def seekTarget (size cursor distanceLow moveMethod : ℕ) : Option (Option ℕ) :=
  let base :=
    if moveMethod = FILE_BEGIN then 0 else if moveMethod = FILE_CURRENT then cursor else size
  if base ≥ 2 ^ 63 then none
  else
    let position := (base : ℤ) + signed32 distanceLow
    if position ≥ 2 ^ 63 then none
    else if position < 0 then some none
    else some (some position.toNat)

/-- `handle_set_file_pointer`. -/
def handleSetFilePointer (e : CpuEngine) (s : FileState) : Handled :=
  match s.openFiles.lookup e.regs.rcx with
  | none => returnWith e { s with lastError := ERROR_INVALID_HANDLE } INVALID_SET_FILE_POINTER
  | some f =>
    if e.regs.r9 ≠ FILE_BEGIN ∧ e.regs.r9 ≠ FILE_CURRENT ∧ e.regs.r9 ≠ FILE_END then
      returnWith e { s with lastError := ERROR_INVALID_PARAMETER } INVALID_SET_FILE_POINTER
    else
      match seekTarget (f.size s.host) f.cursor e.regs.rdx e.regs.r9 with
      | none => (.error, e, s)
      | some none =>
        returnWith e { s with lastError := ERROR_INVALID_PARAMETER } INVALID_SET_FILE_POINTER
      | some (some cursor) =>
        let s := s.setFile e.regs.rcx (f.withCursor cursor)
        match writeGuestU32 e.mem e.regs.r8 (cursor / 2 ^ 32) with
        | none => (.error, e, s)
        | some m =>
          let s := { s with lastError := 0 }
          returnWith { e with mem := syncSlotFromHost m s e.regs.rcx } s (cursor % 2 ^ 32)

/-- `handle_get_file_size`. -/
def handleGetFileSize (e : CpuEngine) (s : FileState) : Handled :=
  match s.openFiles.lookup e.regs.rcx with
  | none => returnWith e { s with lastError := ERROR_INVALID_HANDLE } 0xffffffff
  | some f =>
    let size := f.size s.host
    match writeGuestU32 e.mem e.regs.rdx (size / 2 ^ 32) with
    | none => (.error, e, s)
    | some m => returnWith { e with mem := m } { s with lastError := 0 } (size % 2 ^ 32)

end Wie
