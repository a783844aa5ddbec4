import Wie.Lib.Mailbox
import Wie.Winapi.DirListing
import Wie.Winapi.GuestString

/-!
# Windows and their messages

One queue holds the messages of all windows. `GetMessageA` and `PeekMessageA` take the first one
that their filter accepts and put it into a `MSG` of the guest; `DispatchMessageA` reads a `MSG`
back and asks for the window procedure to be run, as `SendMessageA` and `SendMessageW` do at once.

Window classes and windows are kept in lists that only grow.

## Main definitions

* `QueuedWindowMessage`, `WindowClassRecord`, `WindowRecord`, `UserState` — what is kept
* `MessageFilter` — the filter of a receiver
* `UserEnd` — how a handler ends
* `handleGetMessageA`, `handlePeekMessageA`, `handlePostMessageA`, `handleDispatchMessageA`,
  `handleSendMessage`, `handleRegisterClassEx`, `handleSetWindowText`, `handleGetWindowText` — the
  handlers
-/

namespace Wie

/-! ### Records -/

/-- `QueuedWindowMessage`. -/
structure QueuedWindowMessage where
  /-- Target window. -/
  windowHandle : UInt64
  /-- Message number. -/
  message : UInt32
  /-- Word parameter. -/
  wordParameter : UInt64
  /-- Long parameter. -/
  longParameter : UInt64
  /-- Time stamp. -/
  time : UInt32
  /-- Cursor. -/
  pointX : Int32
  /-- Cursor. -/
  pointY : Int32
deriving DecidableEq

/-- `WindowClassRecord`. -/
structure WindowClassRecord where
  /-- What the registration returned. -/
  atom : ℕ
  /-- Name. -/
  className : List Char
  /-- Window procedure. -/
  windowProc : ℕ
  /-- Style. -/
  style : ℕ
  /-- Module. -/
  instanceHandle : ℕ
  /-- Icon. -/
  iconHandle : ℕ
  /-- Cursor. -/
  cursorHandle : ℕ
  /-- Brush. -/
  backgroundBrush : ℕ
  /-- Small icon. -/
  smallIconHandle : ℕ
  /-- Registered through the wide function. -/
  unicode : Bool
deriving DecidableEq

/-- `WindowRecord`. -/
structure WindowRecord where
  /-- Handle. -/
  handle : ℕ
  /-- Atom of the class, zero for a class that the guest did not register. -/
  classAtom : ℕ
  /-- Name of the class. -/
  className : List Char
  /-- Window procedure, zero for none. -/
  windowProc : ℕ
  /-- The procedure takes wide strings. -/
  unicode : Bool
  /-- Title. -/
  title : List Char
  /-- Style. -/
  style : ℕ
  /-- Extended style. -/
  extendedStyle : ℕ
  /-- Parent. -/
  parentHandle : ℕ
  /-- Menu. -/
  menuHandle : ℕ
  /-- Module. -/
  instanceHandle : ℕ
  /-- Position. -/
  x : Int32
  /-- Position. -/
  y : Int32
  /-- Size. -/
  width : Int32
  /-- Size. -/
  height : Int32
  /-- Visible. -/
  visible : Bool
  /-- Enabled. -/
  enabled : Bool

/-- `GuestCallbackRequest`. -/
structure GuestCallbackRequest where
  /-- Function of the guest. -/
  callbackAddress : ℕ
  /-- Target window. -/
  windowHandle : ℕ
  /-- Message number. -/
  message : ℕ
  /-- Word parameter. -/
  wordParameter : ℕ
  /-- Long parameter. -/
  longParameter : ℕ
  /-- The procedure takes wide strings. -/
  unicode : Bool
deriving DecidableEq

/-- `MessageQueueIdlePolicy`: what `GetMessageA` does when nothing matches. -/
inductive MessageQueueIdlePolicy
  /-- Make up a `WM_QUIT`. -/
  | exitOnIdle
  /-- Wait. -/
  | yieldOnIdle
deriving DecidableEq

/-- The filter of a receiver: a window, zero for all, and a range of message numbers. -/
structure MessageFilter where
  /-- Window. -/
  windowFilter : ℕ
  /-- Smallest number. -/
  minimumMessage : ℕ
  /-- Largest number. -/
  maximumMessage : ℕ
deriving DecidableEq

/-- `matches_filter`. -/
def MessageFilter.accepts (f : MessageFilter) (queued : QueuedWindowMessage) : Bool :=
  (f.windowFilter = 0 || queued.windowHandle.toNat = f.windowFilter) &&
    (if f.minimumMessage = 0 ∧ f.maximumMessage = 0 then true
      else f.minimumMessage ≤ queued.message.toNat && queued.message.toNat ≤ f.maximumMessage)

/-- The filter in the registers of `GetMessageA` and `PeekMessageA`. -/
def MessageFilter.ofRegs (regs : Regs) : MessageFilter :=
  ⟨regs.rdx, regs.r8 % 2 ^ 32, regs.r9 % 2 ^ 32⟩

/-- `WM_QUIT`. -/
def WM_QUIT : UInt32 := 0x12

/-- `WM_MDICREATE`. -/
def WM_MDICREATE : ℕ := 0x220

/-- `FAKE_WINDOW_HANDLE`. -/
def FAKE_WINDOW_HANDLE : ℕ := 0x66000100

/-- The part of `WinApiState` that the handlers look at. -/
structure UserState where
  /-- Messages, in the order of arrival. -/
  messageQueue : List QueuedWindowMessage
  /-- Next time stamp. -/
  nextMessageTime : UInt32
  /-- What an empty queue means. -/
  messageQueueIdlePolicy : MessageQueueIdlePolicy
  /-- Next atom. -/
  nextWindowClassAtom : ℕ
  /-- Registered classes. -/
  windowClasses : List WindowClassRecord
  /-- Next window handle. -/
  nextWindowHandle : ℕ
  /-- Windows. -/
  windows : List WindowRecord
  /-- Title of the main window. -/
  windowTitle : List Char
  /-- What was put into the queue and taken from it. The code keeps no such record. -/
  mail : List (Mail QueuedWindowMessage MessageFilter)

namespace UserState

/-- `message_queue.push`. -/
def push (s : UserState) (m : QueuedWindowMessage) : UserState :=
  { s with messageQueue := s.messageQueue ++ [m], mail := s.mail ++ [.posted m] }

/-- `message_queue.remove`, by a receiver with the filter `f`. -/
def remove (s : UserState) (f : MessageFilter) (index : ℕ) (m : QueuedWindowMessage) : UserState :=
  { s with
    messageQueue := s.messageQueue.eraseIdx index
    mail := s.mail ++ [.taken f m] }

/-- A time stamp, and the state with the next one. -/
def stamp (s : UserState) : Option (UInt32 × UserState) :=
  if s.nextMessageTime.toNat + 1 < 2 ^ 32 then
    some (s.nextMessageTime, { s with nextMessageTime := s.nextMessageTime + 1 })
  else none

/-- `post_window_message`, and the middle of `PostMessageA`. -/
def postWindowMessage (s : UserState) (windowHandle : UInt64) (message : UInt32)
    (wordParameter longParameter : UInt64) : Option UserState :=
  s.stamp.map fun p =>
    p.2.push ⟨windowHandle, message, wordParameter, longParameter, p.1, 0, 0⟩

/-- `find_window`. -/
def findWindow (s : UserState) (handle : ℕ) : Option WindowRecord :=
  s.windows.find? fun window => window.handle = handle

end UserState

/-! ### Fields in memory -/

/-- Write fields `(offset, size, value)`, each at a checked address, up to the first that fails. -/
def writeFields (base : ℕ) : List (ℕ × ℕ × ℕ) → Flat → Bool × Flat
  | [], m => (true, m)
  | w :: ws, m =>
    match (checkedAdd base w.1).bind fun a => m.storeLe a w.2.1 w.2.2 with
    | some m' => writeFields base ws m'
    | none => (false, m)

/-- Read a field at a checked address. -/
def readCheckedField (m : Flat) (base offset size : ℕ) : Option ℕ :=
  (checkedAdd base offset).bind fun a => m.loadLe a size

/-- The fields of a `MSG`, with the padding. -/
def messageFields (queued : QueuedWindowMessage) : List (ℕ × ℕ × ℕ) :=
  [(0, 8, queued.windowHandle.toNat), (8, 4, queued.message.toNat), (12, 4, 0),
    (16, 8, queued.wordParameter.toNat), (24, 8, queued.longParameter.toNat),
    (32, 4, queued.time.toNat), (36, 4, queued.pointX.toUInt32.toNat),
    (40, 4, queued.pointY.toUInt32.toNat), (44, 4, 0)]

/-- `write_message_structure`. -/
def writeMessageStructure (m : Flat) (messageAddress : ℕ) (queued : QueuedWindowMessage) :
    Bool × Flat :=
  writeFields messageAddress (messageFields queued) m

/-! ### Handlers -/

/-- How a handler ends. -/
inductive UserEnd
  /-- Back to the guest. -/
  | returned (returnAddress returnValue : ℕ)
  /-- No message yet; the call is made again later. -/
  | waitingForMessage
  /-- A window procedure has to be run first. -/
  | guestCallbackRequested (request : GuestCallbackRequest)
  /-- An error of the host. -/
  | error
deriving DecidableEq

/-- A thread in a call, and the state. -/
structure User where
  /-- The thread. -/
  engine : CpuEngine
  /-- The state. -/
  state : UserState

namespace User

/-- The return to the guest. -/
def answer (u : User) (value : ℕ) : UserEnd × User :=
  match u.engine.returnFromWin64Api value with
  | (.returned ret v, e) => (.returned ret v, { u with engine := e })
  | (_, e) => (.error, { u with engine := e })

/-- Put a message into the `MSG` that the guest gave, and return. -/
def deliver (u : User) (queued : QueuedWindowMessage) (value : ℕ) : UserEnd × User :=
  match writeMessageStructure u.engine.mem u.engine.regs.rcx queued with
  | (true, m) => answer { u with engine := { u.engine with mem := m } } value
  | (false, m) => (.error, { u with engine := { u.engine with mem := m } })

/-- Go on with a result, or with an error. -/
def andThen {α : Type} (u : User) (r : Option α) (f : α → UserEnd × User) : UserEnd × User :=
  match r with
  | some a => f a
  | none => (.error, u)

end User

/-- The first message that the filter accepts, and where it is. -/
def matchingMessage (queue : List QueuedWindowMessage) (f : MessageFilter) :
    Option (ℕ × QueuedWindowMessage) :=
  (queue.findIdx? f.accepts).bind fun index => queue[index]?.map fun queued => (index, queued)

/-- `handle_get_message_a`. -/
def handleGetMessageA (u : User) : UserEnd × User :=
  let f := MessageFilter.ofRegs u.engine.regs
  if u.engine.regs.rcx = 0 then u.answer 0xffffffff
  else
    match matchingMessage u.state.messageQueue f with
    | some found =>
      User.deliver { u with state := u.state.remove f found.1 found.2 } found.2
        (if found.2.message = WM_QUIT then 0 else 1)
    | none =>
      match u.state.messageQueueIdlePolicy with
      | .exitOnIdle =>
        u.andThen u.state.stamp fun p =>
          User.deliver { u with state := p.2 } ⟨0, WM_QUIT, 0, 0, p.1, 0, 0⟩ 0
      | .yieldOnIdle => (.waitingForMessage, u)

/-- `handle_peek_message_a`. Whether to remove the message is the fifth argument, on the stack. -/
def handlePeekMessageA (u : User) : UserEnd × User :=
  let f := MessageFilter.ofRegs u.engine.regs
  let wRemoveMsg := (u.engine.mem.loadLe ((u.engine.regs.rsp + 0x28) % 2 ^ 64) 4).getD 0
  match matchingMessage u.state.messageQueue f with
  | some found =>
    if wRemoveMsg = 0 then u.deliver found.2 1
    else User.deliver { u with state := u.state.remove f found.1 found.2 } found.2 1
  | none => u.answer 0

/-- `handle_post_message_a`. -/
def handlePostMessageA (u : User) : UserEnd × User :=
  let regs := u.engine.regs
  if regs.rcx = 0 ∨ regs.rcx = FAKE_WINDOW_HANDLE then
    u.andThen (u.state.postWindowMessage (.ofNat regs.rcx) (.ofNat regs.rdx) (.ofNat regs.r8)
      (.ofNat regs.r9)) fun s => User.answer { u with state := s } 1
  else u.answer 0

/-- The request to run the procedure of a window. -/
def WindowRecord.request (window : WindowRecord) (windowHandle message wordParameter
    longParameter : ℕ) (unicode : Bool) : GuestCallbackRequest :=
  ⟨window.windowProc, windowHandle, message, wordParameter, longParameter, unicode⟩

/-- `handle_dispatch_message_a`. -/
def handleDispatchMessageA (u : User) : UserEnd × User :=
  let a := u.engine.regs.rcx
  let m := u.engine.mem
  if a = 0 then u.answer 0
  else
    u.andThen (m.loadLe a 8) fun windowHandle =>
    u.andThen (readCheckedField m a 8 4) fun message =>
    u.andThen (readCheckedField m a 16 8) fun wordParameter =>
    u.andThen (readCheckedField m a 24 8) fun longParameter =>
    match u.state.findWindow windowHandle with
    | none => u.answer 0
    | some window =>
      if window.windowProc = 0 then u.answer 0
      else (.guestCallbackRequested
        (window.request windowHandle message wordParameter longParameter window.unicode), u)

/-! ### Classes and windows -/

namespace UserState

/-- `register_window_class`: zero for a class that is refused. -/
def registerWindowClass (s : UserState) (record : WindowClassRecord) : Option (ℕ × UserState) :=
  if record.className = [] ∨ record.windowProc = 0 then some (0, s)
  else
    match s.windowClasses.find? fun existing =>
        eqIgnoreAsciiCase existing.className record.className &&
          existing.unicode = record.unicode with
    | some existing => some (existing.atom, s)
    | none =>
      if s.nextWindowClassAtom = 0 then some (0, s)
      else if s.nextWindowClassAtom + 1 < 2 ^ 16 then
        some (s.nextWindowClassAtom,
          { s with
            nextWindowClassAtom := s.nextWindowClassAtom + 1
            windowClasses := s.windowClasses ++ [{ record with atom := s.nextWindowClassAtom }] })
      else none

end UserState

/-- `WindowClassIdentifier`. -/
inductive WindowClassIdentifier
  /-- By atom. -/
  | atom (a : ℕ)
  /-- By name. -/
  | name (n : List Char)

/-- `read_window_class_identifier_a` and `read_window_class_identifier_w`: a value of 16 bits is an
atom. -/
def readWindowClassIdentifier (unicode : Bool) (m : Flat) (value : ℕ) :
    Option WindowClassIdentifier :=
  if value = 0 then some (.name [])
  else if value < 2 ^ 16 then some (.atom value)
  else if unicode then (readUtf16Lossy m value 256).map .name
  else (readAnsiLossy m value 256).map .name

/-- `window_class_identifier_matches`. -/
def WindowClassIdentifier.matchesRecord (identifier : WindowClassIdentifier)
    (record : WindowClassRecord) : Bool :=
  match identifier with
  | .atom a => record.atom = a
  | .name n => eqIgnoreAsciiCase record.className n

/-- `find_window_class`: first among the classes of the same kind, then among all. -/
def UserState.findWindowClass (s : UserState) (identifier : WindowClassIdentifier)
    (unicode : Bool) : Option WindowClassRecord :=
  (s.windowClasses.find? fun record =>
    record.unicode = unicode && identifier.matchesRecord record).or
    (s.windowClasses.find? identifier.matchesRecord)

/-- `CreateWindowRequest`. -/
structure CreateWindowRequest where
  /-- Class. -/
  classIdentifier : WindowClassIdentifier
  /-- Title. -/
  title : List Char
  /-- Style. -/
  style : ℕ
  /-- Extended style. -/
  extendedStyle : ℕ
  /-- Parent. -/
  parentHandle : ℕ
  /-- Menu. -/
  menuHandle : ℕ
  /-- Module. -/
  instanceHandle : ℕ
  /-- Position. -/
  x : Int32
  /-- Position. -/
  y : Int32
  /-- Size. -/
  width : Int32
  /-- Size. -/
  height : Int32

/-- The name that a window of an unregistered class gets. -/
def WindowClassIdentifier.text : WindowClassIdentifier → List Char
  | .atom a => '#' :: (Nat.repr a).toList
  | .name n => n

/-- The record of a new window. -/
def CreateWindowRequest.record (request : CreateWindowRequest) (handle : ℕ)
    (registered : Option WindowClassRecord) (unicode : Bool) : WindowRecord where
  handle := handle
  classAtom := (registered.map WindowClassRecord.atom).getD 0
  className := (registered.map WindowClassRecord.className).getD request.classIdentifier.text
  windowProc := (registered.map WindowClassRecord.windowProc).getD 0
  unicode := (registered.map WindowClassRecord.unicode).getD unicode
  title := request.title
  style := request.style
  extendedStyle := request.extendedStyle
  parentHandle := request.parentHandle
  menuHandle := request.menuHandle
  instanceHandle := request.instanceHandle
  x := request.x
  y := request.y
  width := request.width
  height := request.height
  visible := false
  enabled := true

/-- `create_window_record`: the handle, zero when there are none left. -/
def UserState.createWindowRecord (s : UserState) (request : CreateWindowRequest)
    (unicode : Bool) : Option (ℕ × UserState) :=
  if s.nextWindowHandle = 0 then some (0, s)
  else if s.nextWindowHandle + 1 < 2 ^ 64 then
    let registered := s.findWindowClass request.classIdentifier unicode
    some (s.nextWindowHandle,
      { s with
        nextWindowHandle := s.nextWindowHandle + 1
        windows := s.windows ++ [request.record s.nextWindowHandle registered unicode] })
  else none

/-- A field that is a signed number of 32 bits. -/
def readFieldI32 (m : Flat) (base offset : ℕ) : Option Int32 :=
  (readCheckedField m base offset 4).map fun v => (UInt32.ofNat v).toInt32

/-- The request in an `MDICREATESTRUCT`. -/
def readMdiCreate (m : Flat) (ptr : ℕ) (unicode : Bool) : Option CreateWindowRequest := do
  let classPtr ← m.loadLe ptr 8
  let titlePtr ← readCheckedField m ptr 8 8
  let owner ← readCheckedField m ptr 16 8
  let x ← readFieldI32 m ptr 24
  let y ← readFieldI32 m ptr 28
  let cx ← readFieldI32 m ptr 32
  let cy ← readFieldI32 m ptr 36
  let style ← readCheckedField m ptr 40 4
  let classIdentifier ← readWindowClassIdentifier unicode m classPtr
  let title ← if unicode then readUtf16Lossy m titlePtr 512 else readAnsiLossy m titlePtr 512
  some ⟨classIdentifier, title, style, 0, 0, 0, owner, x, y, cx, cy⟩

/-- `create_mdi_child_from_struct`. -/
def UserState.createMdiChildFromStruct (s : UserState) (m : Flat) (createStructPtr : ℕ)
    (unicode : Bool) : Option (ℕ × UserState) :=
  if createStructPtr = 0 then some (0, s)
  else (readMdiCreate m createStructPtr unicode).bind fun request =>
    s.createWindowRecord request unicode

/-- `handle_send_message`: a window with a procedure has it run before the call returns. -/
def handleSendMessage (preferUnicode : Bool) (u : User) : UserEnd × User :=
  let regs := u.engine.regs
  let message := regs.rdx % 2 ^ 32
  if message = WM_MDICREATE then
    u.andThen (u.state.createMdiChildFromStruct u.engine.mem regs.r9 preferUnicode) fun p =>
      User.answer { u with state := p.2 } p.1
  else
    match u.state.findWindow regs.rcx with
    | none => u.answer 0
    | some window =>
      if window.windowProc = 0 then u.answer 0
      else (.guestCallbackRequested (window.request regs.rcx message regs.r8 regs.r9
        (if preferUnicode then true else window.unicode)), u)

/-- `handle_send_message_a`. -/
def handleSendMessageA : User → UserEnd × User := handleSendMessage false

/-- `handle_send_message_w`. -/
def handleSendMessageW : User → UserEnd × User := handleSendMessage true

/-- The class in a `WNDCLASSEX`. -/
def readWindowClass (m : Flat) (ptr : ℕ) (unicode : Bool) : Option WindowClassRecord := do
  let style ← readCheckedField m ptr 4 4
  let windowProc ← readCheckedField m ptr 8 8
  let instanceHandle ← readCheckedField m ptr 24 8
  let iconHandle ← readCheckedField m ptr 32 8
  let cursorHandle ← readCheckedField m ptr 40 8
  let backgroundBrush ← readCheckedField m ptr 48 8
  let classNamePtr ← readCheckedField m ptr 64 8
  let smallIconHandle ← readCheckedField m ptr 72 8
  let className ←
    if unicode then readUtf16Lossy m classNamePtr 256 else readAnsiLossy m classNamePtr 256
  some ⟨0, className, windowProc, style, instanceHandle, iconHandle, cursorHandle, backgroundBrush,
    smallIconHandle, unicode⟩

/-- The two registrations. -/
def handleRegisterClassEx (unicode : Bool) (u : User) : UserEnd × User :=
  let ptr := u.engine.regs.rcx
  if ptr = 0 then u.answer 0
  else
    u.andThen ((readWindowClass u.engine.mem ptr unicode).bind u.state.registerWindowClass) fun p =>
      User.answer { u with state := p.2 } p.1

/-- `handle_register_class_ex_a`. -/
def handleRegisterClassExA : User → UserEnd × User := handleRegisterClassEx false

/-- `handle_register_class_ex_w`. -/
def handleRegisterClassExW : User → UserEnd × User := handleRegisterClassEx true

/-! ### The title of the main window -/

/-- The two ways to set the title. -/
def handleSetWindowText (read : Flat → ℕ → ℕ → Option (List Char)) (u : User) : UserEnd × User :=
  let regs := u.engine.regs
  if regs.rcx = FAKE_WINDOW_HANDLE ∧ regs.rdx ≠ 0 then
    u.andThen (read u.engine.mem regs.rdx 32768) fun text =>
      User.answer { u with state := { u.state with windowTitle := text } } 1
  else u.answer 0

/-- `handle_set_window_text_a`. -/
def handleSetWindowTextA : User → UserEnd × User := handleSetWindowText readAnsiLossy

/-- `handle_set_window_text_w`. -/
def handleSetWindowTextW : User → UserEnd × User := handleSetWindowText readUtf16Lossy

/-- The two ways to get it. -/
def handleGetWindowText (write : Flat → ℕ → ℕ → List Char → Option (ℕ × Flat)) (u : User) :
    UserEnd × User :=
  let regs := u.engine.regs
  if regs.rcx = FAKE_WINDOW_HANDLE then
    u.andThen (write u.engine.mem regs.rdx regs.r8 u.state.windowTitle) fun p =>
      User.answer { u with engine := { u.engine with mem := p.2 } } p.1
  else u.answer 0

/-- `handle_get_window_text_a`. -/
def handleGetWindowTextA : User → UserEnd × User := handleGetWindowText writeAnsiCString

/-- `handle_get_window_text_w`. -/
def handleGetWindowTextW : User → UserEnd × User := handleGetWindowText writeUtf16CString

end Wie
