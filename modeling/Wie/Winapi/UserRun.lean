import Wie.Lib.Nesting
import Wie.Lib.Reach
import Wie.Winapi.UserQueue

/-!
# A session with windows

The guest runs and calls the functions of `UserQueue`, on the first thread or on another one, and
the host posts messages. A call on the first thread that asks for a window procedure makes the
guest run it on the stack of the call; when the procedure returns, it does so to a trampoline, and
the call that asked for it ends there. A procedure may make calls of its own, so such calls nest.

What a call may do is said once, in `UserCall.step`; results on all runs follow from it.

## Main definitions

* `UserCall` — the calls
* `installGuestCallbackFrame`, `finishGuestCallback`, `createWindowReturnValue` — of the source
* `Session`, `UserAction`, `Session.next` — the session, and what happens to it
* `UserState.Change` — what may happen to the state

## Main results

* `UserCall.step` — what a call does to the state, to memory and to the registers
* `Session.next_change`, `Session.next_keeps` — what an action does to the state
-/

namespace Wie

/-! ### Calls -/

/-- The functions of USER32 that are modelled. -/
inductive UserCall
  /-- `GetMessageA`. -/
  | getMessageA
  /-- `PeekMessageA`. -/
  | peekMessageA
  /-- `PostMessageA`. -/
  | postMessageA
  /-- `DispatchMessageA`. -/
  | dispatchMessageA
  /-- `SendMessageA`. -/
  | sendMessageA
  /-- `SendMessageW`. -/
  | sendMessageW
  /-- `RegisterClassExA`. -/
  | registerClassExA
  /-- `RegisterClassExW`. -/
  | registerClassExW
  /-- `SetWindowTextA`. -/
  | setWindowTextA
  /-- `SetWindowTextW`. -/
  | setWindowTextW
  /-- `GetWindowTextA`. -/
  | getWindowTextA
  /-- `GetWindowTextW`. -/
  | getWindowTextW
deriving DecidableEq

namespace UserCall

/-- The handler of a call. -/
def handle : UserCall → User → UserEnd × User
  | getMessageA => handleGetMessageA
  | peekMessageA => handlePeekMessageA
  | postMessageA => handlePostMessageA
  | dispatchMessageA => handleDispatchMessageA
  | sendMessageA => handleSendMessageA
  | sendMessageW => handleSendMessageW
  | registerClassExA => handleRegisterClassExA
  | registerClassExW => handleRegisterClassExW
  | setWindowTextA => handleSetWindowTextA
  | setWindowTextW => handleSetWindowTextW
  | getWindowTextA => handleGetWindowTextA
  | getWindowTextW => handleGetWindowTextW

/-- The name of a call. -/
def name : UserCall → String
  | getMessageA => "GetMessageA"
  | peekMessageA => "PeekMessageA"
  | postMessageA => "PostMessageA"
  | dispatchMessageA => "DispatchMessageA"
  | sendMessageA => "SendMessageA"
  | sendMessageW => "SendMessageW"
  | registerClassExA => "RegisterClassExA"
  | registerClassExW => "RegisterClassExW"
  | setWindowTextA => "SetWindowTextA"
  | setWindowTextW => "SetWindowTextW"
  | getWindowTextA => "GetWindowTextA"
  | getWindowTextW => "GetWindowTextW"

/-- The memory that a call may write: the `MSG` or the text buffer of the guest. -/
def buffer (c : UserCall) (regs : Regs) : Set ℕ :=
  match c with
  | getMessageA => Set.Ico regs.rcx (regs.rcx + 48)
  | peekMessageA => Set.Ico regs.rcx (regs.rcx + 48)
  | getWindowTextA => Set.Ico regs.rdx (regs.rdx + regs.r8)
  | getWindowTextW => Set.Ico regs.rdx (regs.rdx + 2 * regs.r8)
  | _ => ∅

/-- The calls that set the title. -/
def SetsTitle (c : UserCall) : Prop := c = setWindowTextA ∨ c = setWindowTextW

end UserCall

/-! ### Callbacks -/

/-- `install_guest_callback_frame`: a frame below the stack of the call, with the trampoline as
return address. Gives the stack pointer of the call. -/
def installGuestCallbackFrame (e : CpuEngine) (request : GuestCallbackRequest) (trampoline : ℕ) :
    Option ℕ × CpuEngine :=
  let dispatchRsp := e.regs.rsp
  if dispatchRsp < 0x30 then (none, e)
  else
    let frameRsp := dispatchRsp - 0x30
    match e.mem.storeLe frameRsp 8 trampoline with
    | none => (none, e)
    | some m =>
      match (checkedAdd frameRsp 8).bind fun shadow => m.store shadow (List.replicate 0x20 0) with
      | none => (none, { e with mem := m })
      | some m' =>
        (some dispatchRsp,
          { mem := m'
            regs := { e.regs with
              rsp := frameRsp
              rcx := request.windowHandle
              rdx := request.message
              r8 := request.wordParameter
              r9 := request.longParameter
              rip := request.callbackAddress } })

/-- `create_window_return_value`: the handle of the window, unless its procedure said `-1`. -/
def createWindowReturnValue (lresult : ℕ) (createWindowHwnd : Option ℕ) : ℕ :=
  match createWindowHwnd with
  | some hwnd => if lresult % 2 ^ 32 = 2 ^ 32 - 1 then 0 else hwnd
  | none => lresult

/-- `write_rsp`. -/
def CpuEngine.withRsp (e : CpuEngine) (rsp : ℕ) : CpuEngine :=
  { e with regs := { e.regs with rsp := rsp } }

/-- `finish_guest_callback`: the value and the return address. -/
def finishGuestCallback (e : CpuEngine) (dispatchRsp : ℕ) (createWindowHwnd : Option ℕ) :
    Option (ℕ × ℕ) × CpuEngine :=
  let value := createWindowReturnValue e.regs.rax createWindowHwnd
  match (e.withRsp dispatchRsp).returnFromWin64Api value with
  | (.returned ret v, e') => (some (v, ret), e')
  | (_, e') => (none, e')

/-- `create_window_hwnd_for_outer`. -/
def createWindowHwndForOuter (outerName : String) (windowHandle : ℕ) : Option ℕ :=
  if eqIgnoreAsciiCase outerName.toList "CreateWindowExA".toList ||
      eqIgnoreAsciiCase outerName.toList "CreateWindowExW".toList then some windowHandle
  else none

/-- `PendingGuestCallback`. -/
structure PendingGuestCallback where
  /-- Stack pointer of the call. -/
  dispatchRsp : ℕ
  /-- What was asked for. -/
  request : GuestCallbackRequest
  /-- The call. -/
  outerName : String
  /-- The window that the call created. -/
  createWindowHwnd : Option ℕ

/-- A call that waits for a window procedure: its stack pointer, and the address it was to return
to. -/
structure OuterCall where
  /-- Stack pointer. -/
  rsp : ℕ
  /-- Return address, if it could be read. -/
  returnAddress : Option ℕ
deriving DecidableEq

/-- The end of such a call. -/
structure Completion where
  /-- Stack pointer afterwards. -/
  rsp : ℕ
  /-- Where it returned. -/
  returnAddress : ℕ
  /-- What the window procedure returned. -/
  lresult : ℕ
  /-- What the call returned. -/
  value : ℕ
deriving DecidableEq

/-- The call ended where it was to return to, with its return address popped and with the result of
the window procedure. -/
def OuterCall.fits (o : OuterCall) (c : Completion) : Prop :=
  c.rsp = (o.rsp + 8) % 2 ^ 64 ∧ o.returnAddress = some c.returnAddress ∧ c.value = c.lresult

instance OuterCall.decidableFits (o : OuterCall) (c : Completion) : Decidable (o.fits c) :=
  inferInstanceAs (Decidable (_ ∧ _))

/-! ### Sessions -/

/-- A session. -/
structure Session where
  /-- The first thread, and the state. -/
  user : User
  /-- Calls that wait for a window procedure, the last one first. -/
  pendingCallbacks : List PendingGuestCallback
  /-- Where window procedures return to. -/
  callbackReturnTrampolineVa : ℕ
  /-- Which calls waited and how they ended. The code keeps no such record. -/
  record : List (Nesting OuterCall Completion)

/-- What happens to a session. -/
inductive UserAction
  /-- The guest runs, on whatever threads, up to this state of the first one. -/
  | guest (e : CpuEngine)
  /-- The first thread makes a call. -/
  | call (c : UserCall)
  /-- Another thread makes a call. -/
  | worker (regs : Regs) (c : UserCall)
  /-- The first thread comes to the trampoline. -/
  | trampoline
  /-- The host posts a message as it is. -/
  | postMessage (m : QueuedWindowMessage)
  /-- The host posts a message with a time stamp. -/
  | postWindowMessage (windowHandle : UInt64) (message : UInt32)
    (wordParameter longParameter : UInt64)
  /-- The host says what an empty queue means. -/
  | setMessageQueueIdlePolicy (policy : MessageQueueIdlePolicy)

namespace Session

/-- Guest memory. -/
def mem (s : Session) : Flat := s.user.engine.mem

/-- The state. -/
def state (s : Session) : UserState := s.user.state

/-- The first thread has changed. -/
def withEngine (s : Session) (e : CpuEngine) : Session :=
  { s with user := { s.user with engine := e } }

/-- The state has changed. -/
def withState (s : Session) (st : UserState) : Session :=
  { s with user := { s.user with state := st } }

/-- `begin_guest_callback`. -/
def beginGuestCallback (s : Session) (request : GuestCallbackRequest) (outerName : String) :
    Session :=
  match installGuestCallbackFrame s.user.engine request s.callbackReturnTrampolineVa with
  | (some dispatchRsp, e) =>
    { s.withEngine e with
      pendingCallbacks := ⟨dispatchRsp, request, outerName,
        createWindowHwndForOuter outerName request.windowHandle⟩ :: s.pendingCallbacks
      record := s.record ++ [.opens ⟨dispatchRsp, s.mem.loadLe dispatchRsp 8⟩] }
  | (none, e) => s.withEngine e

/-- `complete_guest_callback`. -/
def completeGuestCallback (s : Session) : Session :=
  match s.pendingCallbacks with
  | [] => s
  | pending :: rest =>
    match finishGuestCallback s.user.engine pending.dispatchRsp pending.createWindowHwnd with
    | (some value, e) =>
      { s.withEngine e with
        pendingCallbacks := rest
        record := s.record ++
          [.closes ⟨e.regs.rsp, value.2, s.user.engine.regs.rax, value.1⟩] }
    | (none, e) =>
      { s.withEngine e with pendingCallbacks := rest, record := s.record ++ [.drops] }

/-- The end of a call of the first thread. -/
def endCall (s : Session) (c : UserCall) (p : UserEnd × User) : Session :=
  match p.1 with
  | .guestCallbackRequested request => beginGuestCallback { s with user := p.2 } request c.name
  | _ => { s with user := p.2 }

/-- What an action does. Another thread keeps registers of its own, and cannot run window
procedures: its run ends with an error. -/
def next (s : Session) : UserAction → Session
  | .guest e => s.withEngine e
  | .call c => s.endCall c (c.handle s.user)
  | .worker regs c =>
    let u := (c.handle { engine := ⟨regs, s.mem⟩, state := s.state }).2
    { s with user := ⟨⟨s.user.engine.regs, u.engine.mem⟩, u.state⟩ }
  | .trampoline => s.completeGuestCallback
  | .postMessage m => s.withState (s.state.push m)
  | .postWindowMessage h n w l => s.withState ((s.state.postWindowMessage h n w l).getD s.state)
  | .setMessageQueueIdlePolicy p => s.withState { s.state with messageQueueIdlePolicy := p }

/-- A session before the guest runs. -/
structure Starts (s : Session) : Prop where
  /-- No messages. -/
  messageQueue : s.state.messageQueue = []
  /-- None were. -/
  mail : s.state.mail = []
  /-- No classes. -/
  windowClasses : s.state.windowClasses = []
  /-- No windows. -/
  windows : s.state.windows = []
  /-- No window procedure runs. -/
  pendingCallbacks : s.pendingCallbacks = []
  /-- None did. -/
  record : s.record = []

/-- The sessions reachable by actions that meet a guard. -/
def Reached (guard : Session → UserAction → Prop) : Session → Prop :=
  GuardedReach Starts guard fun s a s' => s' = s.next a

/-- Every action. -/
def AnyAction (_ : Session) (_ : UserAction) : Prop := True

end Session

/-! ### What happens to the state -/

/-- What may happen to the state, apart from messages that the host posts as they are. The title is
set only where `T` holds. -/
inductive UserState.Change (T : Prop) (s : UserState) : UserState → Prop
  /-- Nothing. -/
  | keep : Change T s s
  /-- A time stamp was used. -/
  | stamp {t : UInt32} {s' : UserState} (h : s.stamp = some (t, s')) : Change T s s'
  /-- A message was posted with a time stamp. -/
  | posted {windowHandle wordParameter longParameter : UInt64} {message : UInt32} {s' : UserState}
    (h : s.postWindowMessage windowHandle message wordParameter longParameter = some s') :
    Change T s s'
  /-- The first message that a filter accepts was taken. -/
  | removed {f : MessageFilter} {index : ℕ} {m : QueuedWindowMessage}
    (h : matchingMessage s.messageQueue f = some (index, m)) : Change T s (s.remove f index m)
  /-- A class was registered. -/
  | registered {r : WindowClassRecord} {v : ℕ} {s' : UserState}
    (h : s.registerWindowClass r = some (v, s')) : Change T s s'
  /-- A window was created. -/
  | created {request : CreateWindowRequest} {unicode : Bool} {v : ℕ} {s' : UserState}
    (h : s.createWindowRecord request unicode = some (v, s')) : Change T s s'
  /-- The title was set. -/
  | titled (h : T) (text : List Char) : Change T s { s with windowTitle := text }
  /-- The policy was set. -/
  | idled (policy : MessageQueueIdlePolicy) :
    Change T s { s with messageQueueIdlePolicy := policy }

/-- What a call that may write `B` does. -/
structure UserStep (T : Prop) (B : Set ℕ) (u : User) (p : UserEnd × User) : Prop where
  /-- To the state. -/
  state : u.state.Change T p.2.state
  /-- To memory. -/
  mem : Flat.AgreeOff B p.2.engine.mem u.engine.mem
  /-- To all of it, when a window procedure has to be run. -/
  requested : ∀ request, p.1 = .guestCallbackRequested request → p.2 = u

section steps

variable {T : Prop} {B : Set ℕ} {u : User} {s : UserState}

/-- A call that fails. -/
theorem UserStep.error (hs : u.state.Change T s) {m : Flat} (hm : Flat.AgreeOff B m u.engine.mem)
    {regs : Regs} : UserStep T B u (.error, ⟨⟨regs, m⟩, s⟩) :=
  ⟨hs, hm, fun _ h => by cases h⟩

/-- A call that returns. -/
theorem UserStep.answer (hs : u.state.Change T s) {m : Flat} (hm : Flat.AgreeOff B m u.engine.mem)
    {regs : Regs} (v : ℕ) : UserStep T B u (User.answer ⟨⟨regs, m⟩, s⟩ v) := by
  have hmem := CpuEngine.returnFromWin64Api_mem ⟨regs, m⟩ v
  rw [User.answer]
  split
  · rename_i ret v' e' he
    rw [he] at hmem
    exact ⟨hs, by rwa [show e'.mem = m from hmem], fun _ h => by cases h⟩
  · rename_i r e' hne he
    rw [he] at hmem
    exact ⟨hs, by rwa [show e'.mem = m from hmem], fun _ h => by cases h⟩

/-- A call that returns with nothing done. -/
theorem UserStep.answer_self (v : ℕ) : UserStep T B u (u.answer v) := by
  show UserStep T B u (User.answer ⟨⟨u.engine.regs, u.engine.mem⟩, u.state⟩ v)
  exact .answer .keep (.refl _ _) v

/-- The rest of a call, if there is one. -/
theorem UserStep.andThen {α : Type} {r : Option α} {f : α → UserEnd × User}
    (h : ∀ a, r = some a → UserStep T B u (f a)) : UserStep T B u (u.andThen r f) := by
  cases r with
  | none =>
    show UserStep T B u (.error, ⟨⟨u.engine.regs, u.engine.mem⟩, u.state⟩)
    exact .error .keep (.refl _ _)
  | some a => exact h a rfl

/-- Fields are written where they are. -/
theorem agreeOff_writeFields {R : Set ℕ} {base : ℕ} {ws : List (ℕ × ℕ × ℕ)} (m : Flat)
    (h : ∀ w ∈ ws, ∀ x, base + w.1 ≤ x → x < base + w.1 + w.2.1 → x ∈ R) :
    Flat.AgreeOff R (writeFields base ws m).2 m := by
  induction ws generalizing m with
  | nil => exact .refl _ _
  | cons w ws ih =>
    rw [writeFields]
    split
    · rename_i m' hm'
      obtain ⟨a, ha, hstore⟩ := Option.bind_eq_some_iff.mp hm'
      obtain ⟨rfl, -⟩ := checkedAdd_eq_some.mp ha
      obtain ⟨rfl, -⟩ := Flat.storeLe_eq_some hstore
      exact (ih _ fun w' hw' => h w' (.tail _ hw')).trans (.set_left _ (h w (.head _)))
    · exact .refl _ _

theorem messageFields_le (m : QueuedWindowMessage) : ∀ w ∈ messageFields m, w.1 + w.2.1 ≤ 48 := by
  simp [messageFields]

/-- A message is delivered, or the call fails on the way. -/
theorem UserStep.deliver (hs : u.state.Change T s) (m : QueuedWindowMessage) (v : ℕ) :
    UserStep T (Set.Ico u.engine.regs.rcx (u.engine.regs.rcx + 48)) u
      (User.deliver { u with state := s } m v) := by
  have hmem : Flat.AgreeOff (Set.Ico u.engine.regs.rcx (u.engine.regs.rcx + 48))
      (writeFields u.engine.regs.rcx (messageFields m) u.engine.mem).2 u.engine.mem :=
    agreeOff_writeFields _ fun w hw x h1 h2 =>
      have := messageFields_le m w hw
      ⟨by omega, by omega⟩
  rw [User.deliver]
  split
  · rename_i m' hm'
    rw [show m' = (writeFields u.engine.regs.rcx (messageFields m) u.engine.mem).2 from
      (congrArg Prod.snd hm').symm]
    exact .answer hs hmem v
  · rename_i m' hm'
    rw [show m' = (writeFields u.engine.regs.rcx (messageFields m) u.engine.mem).2 from
      (congrArg Prod.snd hm').symm]
    exact .error hs hmem

theorem handleGetMessageA_step (u : User) :
    UserStep T (UserCall.getMessageA.buffer u.engine.regs) u (handleGetMessageA u) := by
  simp only [handleGetMessageA]
  split
  · exact .answer_self _
  · split
    · rename_i found hfound
      exact .deliver (.removed hfound) _ _
    · split
      · refine .andThen fun p hp => ?_
        exact .deliver (.stamp (t := p.1) hp) _ _
      · exact ⟨.keep, .refl _ _, fun _ h => by cases h⟩

theorem handlePeekMessageA_step (u : User) :
    UserStep T (UserCall.peekMessageA.buffer u.engine.regs) u (handlePeekMessageA u) := by
  simp only [handlePeekMessageA]
  split
  · rename_i found hfound
    split
    · exact .deliver (u := u) (s := u.state) .keep _ _
    · exact .deliver (.removed hfound) _ _
  · exact .answer_self _

theorem handlePostMessageA_step (u : User) : UserStep T B u (handlePostMessageA u) := by
  simp only [handlePostMessageA]
  split
  · refine .andThen fun s hs => ?_
    exact .answer (.posted hs) (.refl _ _) _
  · exact .answer_self _

theorem handleDispatchMessageA_step (u : User) : UserStep T B u (handleDispatchMessageA u) := by
  simp only [handleDispatchMessageA]
  split
  · exact .answer_self _
  · refine .andThen fun windowHandle _ => .andThen fun message _ => .andThen fun w _ =>
      .andThen fun l _ => ?_
    split
    · exact .answer_self _
    · split
      · exact .answer_self _
      · exact ⟨.keep, .refl _ _, fun _ _ => rfl⟩

theorem handleSendMessage_step (preferUnicode : Bool) (u : User) :
    UserStep T B u (handleSendMessage preferUnicode u) := by
  simp only [handleSendMessage]
  split
  · refine .andThen fun p hp => ?_
    refine .answer ?_ (.refl _ _) _
    rw [UserState.createMdiChildFromStruct] at hp
    split at hp
    · rw [← Option.some.inj hp]
      exact .keep
    · obtain ⟨request, -, hcreate⟩ := Option.bind_eq_some_iff.mp hp
      exact .created hcreate
  · split
    · exact .answer_self _
    · split
      · exact .answer_self _
      · exact ⟨.keep, .refl _ _, fun _ _ => rfl⟩

theorem handleRegisterClassEx_step (unicode : Bool) (u : User) :
    UserStep T B u (handleRegisterClassEx unicode u) := by
  simp only [handleRegisterClassEx]
  split
  · exact .answer_self _
  · refine .andThen fun p hp => ?_
    obtain ⟨r, -, hr⟩ := Option.bind_eq_some_iff.mp hp
    exact .answer (.registered hr) (.refl _ _) _

theorem handleSetWindowText_step (hT : T) (read : Flat → ℕ → ℕ → Option (List Char)) (u : User) :
    UserStep T B u (handleSetWindowText read u) := by
  simp only [handleSetWindowText]
  split
  · refine .andThen fun text _ => ?_
    exact .answer (.titled hT text) (.refl _ _) _
  · exact .answer_self _

theorem handleGetWindowText_step {write : Flat → ℕ → ℕ → List Char → Option (ℕ × Flat)} {u : User}
    (h : ∀ p, write u.engine.mem u.engine.regs.rdx u.engine.regs.r8 u.state.windowTitle = some p →
      Flat.AgreeOff B p.2 u.engine.mem) : UserStep T B u (handleGetWindowText write u) := by
  simp only [handleGetWindowText]
  split
  · refine .andThen fun p hp => ?_
    exact .answer .keep (h p hp) _
  · exact .answer_self _

/-- The writers stay in the buffer. -/
theorem agreeOff_writeAnsiCString {m : Flat} {address maxCharacters : ℕ} {text : List Char}
    {p : ℕ × Flat} (h : writeAnsiCString m address maxCharacters text = some p) :
    Flat.AgreeOff (Set.Ico address (address + maxCharacters)) p.2 m := by
  rw [writeAnsiCString] at h
  split at h
  · rw [← Option.some.inj h]
  · rename_i hne
    obtain ⟨m', hm', rfl⟩ := Option.map_eq_some_iff.mp h
    obtain ⟨rfl, -⟩ := Flat.store_eq_some hm'
    refine .put_left _ fun x h1 h2 => ⟨h1, ?_⟩
    rw [List.length_append, List.length_take, List.length_singleton] at h2
    omega

theorem agreeOff_writeUtf16CString {m : Flat} {address maxCharacters : ℕ} {text : List Char}
    {p : ℕ × Flat} (h : writeUtf16CString m address maxCharacters text = some p) :
    Flat.AgreeOff (Set.Ico address (address + 2 * maxCharacters)) p.2 m := by
  rw [writeUtf16CString] at h
  split at h
  · rw [← Option.some.inj h]
  · rename_i hne
    obtain ⟨m', hm', rfl⟩ := Option.map_eq_some_iff.mp h
    obtain ⟨rfl, -⟩ := Flat.store_eq_some hm'
    refine .put_left _ fun x h1 h2 => ⟨h1, ?_⟩
    rw [unitBytes_eq, length_bytesOfUnits, List.length_map, List.length_append, List.length_take,
      List.length_singleton] at h2
    omega

/-- **What a call does.** -/
theorem UserCall.step (c : UserCall) (u : User) :
    UserStep c.SetsTitle (c.buffer u.engine.regs) u (c.handle u) := by
  cases c with
  | getMessageA => exact handleGetMessageA_step u
  | peekMessageA => exact handlePeekMessageA_step u
  | postMessageA => exact handlePostMessageA_step u
  | dispatchMessageA => exact handleDispatchMessageA_step u
  | sendMessageA => exact handleSendMessage_step false u
  | sendMessageW => exact handleSendMessage_step true u
  | registerClassExA => exact handleRegisterClassEx_step false u
  | registerClassExW => exact handleRegisterClassEx_step true u
  | setWindowTextA => exact handleSetWindowText_step (.inl rfl) readAnsiLossy u
  | setWindowTextW => exact handleSetWindowText_step (.inr rfl) readUtf16Lossy u
  | getWindowTextA => exact handleGetWindowText_step fun _ hp => agreeOff_writeAnsiCString hp
  | getWindowTextW => exact handleGetWindowText_step fun _ hp => agreeOff_writeUtf16CString hp

end steps

namespace Session

variable {s : Session}

@[simp] theorem state_withEngine (s : Session) (e : CpuEngine) : (s.withEngine e).state = s.state :=
  rfl

@[simp] theorem state_withState (s : Session) (st : UserState) : (s.withState st).state = st := rfl

@[simp] theorem state_beginGuestCallback (s : Session) (request : GuestCallbackRequest)
    (outerName : String) : (s.beginGuestCallback request outerName).state = s.state := by
  rw [beginGuestCallback]
  split <;> rfl

@[simp] theorem state_completeGuestCallback (s : Session) :
    s.completeGuestCallback.state = s.state := by
  rw [completeGuestCallback]
  split
  · rfl
  · split <;> rfl

@[simp] theorem state_endCall (s : Session) (c : UserCall) (p : UserEnd × User) :
    (s.endCall c p).state = p.2.state := by
  rw [endCall]
  split
  · exact state_beginGuestCallback _ _ _
  · rfl

/-- The host posts no message as it is. -/
def Stamped (_ : Session) (a : UserAction) : Prop :=
  match a with
  | .postMessage _ => False
  | _ => True

/-- The action sets the title. -/
def SetsTitle (a : UserAction) : Prop :=
  match a with
  | .call c => c.SetsTitle
  | .worker _ c => c.SetsTitle
  | _ => False

/-- **What an action does to the state.** -/
theorem next_change (s : Session) {a : UserAction} (ha : Stamped s a) :
    s.state.Change (SetsTitle a) (s.next a).state := by
  cases a with
  | guest e => exact .keep
  | call c =>
    rw [next, state_endCall]
    exact (c.step s.user).state
  | worker regs c => exact (c.step ⟨⟨regs, s.mem⟩, s.state⟩).state
  | trampoline =>
    rw [next, state_completeGuestCallback]
    exact .keep
  | postMessage m => exact ha.elim
  | postWindowMessage h n w l =>
    rw [next, state_withState]
    cases hpost : s.state.postWindowMessage h n w l with
    | none => exact .keep
    | some st => exact .posted hpost
  | setMessageQueueIdlePolicy p => exact .idled p

/-- What the changes and the posts of the host keep, every action keeps. -/
theorem next_keeps {I : UserState → Prop}
    (hchange : ∀ (T : Prop) st st', st.Change T st' → I st → I st')
    (hpush : ∀ st m, I st → I (st.push m)) (s : Session) (a : UserAction) (h : I s.state) :
    I (s.next a).state := by
  cases a with
  | postMessage m => exact hpush _ m h
  | guest e => exact hchange _ _ _ (s.next_change trivial) h
  | call c => exact hchange _ _ _ (s.next_change trivial) h
  | worker regs c => exact hchange _ _ _ (s.next_change trivial) h
  | trampoline => exact hchange _ _ _ (s.next_change trivial) h
  | postWindowMessage w n p l => exact hchange _ _ _ (s.next_change trivial) h
  | setMessageQueueIdlePolicy p => exact hchange _ _ _ (s.next_change trivial) h

end Session

end Wie
