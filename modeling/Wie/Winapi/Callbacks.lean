import Mathlib.Order.CompletePartialOrder
import Wie.Winapi.UserLedger

/-!
# Window procedures

Two things are owed to the guest. A call that has a window procedure run must return to its own
caller, with the result of the procedure, however many calls of the same kind the procedure makes.
And what a receiver takes from the queue must reach the procedure of its window as it was posted,
through a `MSG` that lies in memory of the guest in between.

Both hold as long as nobody writes over the memory in question: the return addresses on the stack,
or the `MSG`. What an action may write is said by `Session.writes`.

## Main definitions

* `Session.writes` — the memory that an action may write
* `KeepsFrames`, `KeepsMsg` — actions that spare return addresses, or a `MSG`

## Main results

* `Session.byte_next` — nothing else is written
* `Session.callbacks_return_to_callers` — calls return to their callers
* `Session.dispatched_as_posted` — messages reach window procedures as they were posted
-/

namespace Wie

open Nesting

/-! ### Frames -/

section frames

variable {e e' : CpuEngine} {request : GuestCallbackRequest} {trampoline dispatchRsp : ℕ}

/-- The frame of a window procedure, below the stack pointer of the call. -/
def frameOf (rsp : ℕ) : Set ℕ := Set.Ico (rsp - 0x30) (rsp - 8)

/-- A frame that was installed. -/
theorem installGuestCallbackFrame_eq_some
    (h : installGuestCallbackFrame e request trampoline = (some dispatchRsp, e')) :
    dispatchRsp = e.regs.rsp ∧ Flat.AgreeOff (frameOf e.regs.rsp) e'.mem e.mem := by
  simp only [installGuestCallbackFrame] at h
  split at h
  · cases h
  · rename_i hroom
    split at h
    · cases h
    · rename_i m hm
      split at h
      · cases h
      · rename_i m' hm'
        obtain ⟨hrsp, rfl⟩ := Prod.mk.inj h
        obtain ⟨rfl, -⟩ := Flat.storeLe_eq_some hm
        obtain ⟨shadow, hshadow, hstore⟩ := Option.bind_eq_some_iff.mp hm'
        obtain ⟨rfl, -⟩ := checkedAdd_eq_some.mp hshadow
        obtain ⟨rfl, -⟩ := Flat.store_eq_some hstore
        refine ⟨(Option.some.inj hrsp).symm, .trans (.put_left _ fun x h1 h2 => ?_)
          (.set_left _ fun x h1 h2 => ?_)⟩
        · rw [List.length_replicate] at h2
          exact ⟨by omega, by omega⟩
        · exact ⟨by omega, by omega⟩

/-- A frame that could not be installed. -/
theorem installGuestCallbackFrame_eq_none
    (h : installGuestCallbackFrame e request trampoline = (none, e')) :
    Flat.AgreeOff (frameOf e.regs.rsp) e'.mem e.mem := by
  simp only [installGuestCallbackFrame] at h
  split at h
  · rw [← (Prod.mk.inj h).2]
  · rename_i hroom
    split at h
    · rw [← (Prod.mk.inj h).2]
    · rename_i m hm
      split at h
      · obtain ⟨-, rfl⟩ := Prod.mk.inj h
        obtain ⟨rfl, -⟩ := Flat.storeLe_eq_some hm
        exact .set_left _ fun x h1 h2 => ⟨by omega, by omega⟩
      · cases h

/-- **A frame is installed** where there is room for it. -/
theorem installGuestCallbackFrame_of_rw (request : GuestCallbackRequest) (trampoline : ℕ)
    (hroom : 0x30 ≤ e.regs.rsp) (hlt : e.regs.rsp < 2 ^ 64)
    (hrw : e.mem.Rw (e.regs.rsp - 0x30) 0x28) :
    ∃ m, installGuestCallbackFrame e request trampoline =
      (some e.regs.rsp,
        ⟨⟨e.regs.rax, request.windowHandle, request.message, request.wordParameter,
          request.longParameter, e.regs.rsp - 0x30, request.callbackAddress⟩, m⟩) ∧
      m.loadLe (e.regs.rsp - 0x30) 8 = some (trampoline % 2 ^ 64) := by
  have hlow : e.mem.Rw (e.regs.rsp - 0x30) 8 := hrw.mono le_rfl (by omega)
  have hshadow : (e.mem.set (e.regs.rsp - 0x30) 8 trampoline).Rw (e.regs.rsp - 0x30 + 8)
      (List.replicate 0x20 (0 : UInt8)).length :=
    (hrw.mono (by omega) (by rw [List.length_replicate])).congr rfl
  have hback : Flat.Rw ((e.mem.set (e.regs.rsp - 0x30) 8 trampoline).put (e.regs.rsp - 0x30 + 8)
      (List.replicate 0x20 0)) (e.regs.rsp - 0x30) 8 := hlow.congr rfl
  have hadd : checkedAdd (e.regs.rsp - 0x30) 8 = some (e.regs.rsp - 0x30 + 8) :=
    checkedAdd_eq_some.mpr ⟨rfl, by omega⟩
  refine ⟨((e.mem.set (e.regs.rsp - 0x30) 8 trampoline).put (e.regs.rsp - 0x30 + 8)
    (List.replicate 0x20 0)), ?_, ?_⟩
  · simp only [installGuestCallbackFrame]
    rw [if_neg (by omega), hlow.storeLe]
    simp only [hadd, Option.bind_some]
    rw [hshadow.store]
  · rw [hback.loadLe, Flat.get_congr fun x h1 h2 =>
      Flat.byte_put_of_notMem (.inl h2), Flat.get_set]
    norm_num

/-- A call that ended. -/
theorem finishGuestCallback_eq_some {hwnd : Option ℕ} {value : ℕ × ℕ}
    (h : finishGuestCallback e dispatchRsp hwnd = (some value, e')) :
    e.mem.loadLe dispatchRsp 8 = some value.2 ∧
      value.1 = createWindowReturnValue e.regs.rax hwnd ∧
      e'.regs.rsp = (dispatchRsp + 8) % 2 ^ 64 ∧ e'.mem = e.mem := by
  simp only [finishGuestCallback, CpuEngine.returnFromWin64Api] at h
  split at h
  · rename_i ret v e₂ heq
    split at heq
    · rename_i ret' hload
      obtain ⟨hr, rfl⟩ := Prod.mk.inj heq
      obtain ⟨rfl, rfl⟩ := ApiResult.returned.inj hr
      obtain ⟨hv, rfl⟩ := Prod.mk.inj h
      rw [← Option.some.inj hv]
      exact ⟨hload, rfl, rfl, rfl⟩
    · cases heq
  · cases h

theorem finishGuestCallback_mem (e : CpuEngine) (dispatchRsp : ℕ) (hwnd : Option ℕ) :
    (finishGuestCallback e dispatchRsp hwnd).2.mem = e.mem := by
  have hmem := (e.withRsp dispatchRsp).returnFromWin64Api_mem
    (createWindowReturnValue e.regs.rax hwnd)
  rw [finishGuestCallback]
  split
  · rename_i heq
    rwa [heq] at hmem
  · rename_i heq
    rwa [heq] at hmem

end frames

/-- None of the calls creates a window that its caller waits for. -/
theorem createWindowHwndForOuter_name (c : UserCall) (windowHandle : ℕ) :
    createWindowHwndForOuter c.name windowHandle = none := by
  cases c <;> exact if_neg (by decide)

namespace Session

variable {s s' : Session}

/-! ### What is written -/

/-- The memory that an action may write. -/
def writes (s : Session) : UserAction → Set ℕ
  | .guest e => {x | e.mem.byte x ≠ s.mem.byte x ∨ e.mem.readable x ≠ s.mem.readable x}
  | .call c => c.buffer s.user.engine.regs ∪ frameOf s.user.engine.regs.rsp
  | .worker regs c => c.buffer regs
  | _ => ∅

@[simp] theorem mem_withEngine (s : Session) (e : CpuEngine) : (s.withEngine e).mem = e.mem := rfl

@[simp] theorem mem_withState (s : Session) (st : UserState) : (s.withState st).mem = s.mem := rfl

theorem agreeOff_beginGuestCallback (s : Session) (request : GuestCallbackRequest)
    (outerName : String) :
    Flat.AgreeOff (frameOf s.user.engine.regs.rsp) (s.beginGuestCallback request outerName).mem
      s.mem := by
  rw [beginGuestCallback]
  split
  · rename_i heq
    exact (installGuestCallbackFrame_eq_some heq).2
  · rename_i heq
    exact installGuestCallbackFrame_eq_none heq

theorem mem_completeGuestCallback (s : Session) : s.completeGuestCallback.mem = s.mem := by
  rw [completeGuestCallback]
  split
  · rfl
  · rename_i pending rest _
    have hmem := finishGuestCallback_mem s.user.engine pending.dispatchRsp pending.createWindowHwnd
    split
    · rename_i heq
      rwa [heq] at hmem
    · rename_i heq
      rwa [heq] at hmem

theorem agreeOff_call (s : Session) (c : UserCall) :
    Flat.AgreeOff (s.writes (.call c)) (s.next (.call c)).mem s.mem := by
  have hstep := c.step s.user
  have hmem : Flat.AgreeOff (s.writes (.call c)) (c.handle s.user).2.engine.mem s.mem :=
    ⟨fun x hx => hstep.mem.byte x fun h => hx (.inl h), hstep.mem.readable, hstep.mem.writable⟩
  rw [next, endCall]
  split
  · rename_i request hreq
    rw [hstep.requested request hreq]
    have hbegin := agreeOff_beginGuestCallback s request c.name
    exact ⟨fun x hx => hbegin.byte x fun h => hx (.inr h), hbegin.readable, hbegin.writable⟩
  · exact hmem

/-- **Nothing else is written.** -/
theorem byte_next (s : Session) (a : UserAction) {x : ℕ} (hx : x ∉ s.writes a) :
    (s.next a).mem.byte x = s.mem.byte x ∧ (s.next a).mem.readable x = s.mem.readable x := by
  cases a with
  | guest e => exact ⟨not_not.mp fun h => hx (.inl h), not_not.mp fun h => hx (.inr h)⟩
  | call c =>
    have h := agreeOff_call s c
    exact ⟨h.byte x hx, congrFun h.readable x⟩
  | worker regs c =>
    have h := (c.step ⟨⟨regs, s.mem⟩, s.state⟩).mem
    exact ⟨h.byte x hx, congrFun h.readable x⟩
  | trampoline =>
    rw [next, mem_completeGuestCallback]
    exact ⟨rfl, rfl⟩
  | postMessage m => exact ⟨rfl, rfl⟩
  | postWindowMessage h n w l => exact ⟨rfl, rfl⟩
  | setMessageQueueIdlePolicy p => exact ⟨rfl, rfl⟩

/-- What is read beside it is the same. -/
theorem loadLe_next {a : UserAction} {b n : ℕ} (h : Disjoint (Set.Ico b (b + n)) (s.writes a)) :
    (s.next a).mem.loadLe b n = s.mem.loadLe b n := by
  have hx : ∀ x, b ≤ x → x < b + n → x ∉ s.writes a := fun x h1 h2 =>
    Set.disjoint_left.mp h ⟨h1, h2⟩
  have hbytes : (s.next a).mem.bytes b n = s.mem.bytes b n :=
    Flat.bytes_congr fun x h1 h2 => (s.byte_next a (hx x h1 h2)).1
  have hread : (List.range n).all (fun i => (s.next a).mem.readable (b + i)) =
      (List.range n).all fun i => s.mem.readable (b + i) := by
    rw [Bool.eq_iff_iff, List.all_eq_true, List.all_eq_true]
    refine forall₂_congr fun i hi => ?_
    have hi := List.mem_range.mp hi
    rw [(s.byte_next a (hx (b + i) (by omega) (by omega))).2]
  rw [Flat.loadLe, Flat.load, Flat.loadLe, Flat.load, hbytes, hread]

/-! ### Calls return to their callers -/

/-- The return address of a call that waits. -/
def slot (p : PendingGuestCallback) : Set ℕ := Set.Ico p.dispatchRsp (p.dispatchRsp + 8)

/-- The action does not write over the return address of a call that waits. -/
def KeepsFrames (s : Session) (a : UserAction) : Prop :=
  ∀ p ∈ s.pendingCallbacks, Disjoint (slot p) (s.writes a)

/-- A call that waits, with the return address that is on the stack now. -/
def outer (s : Session) (p : PendingGuestCallback) : OuterCall :=
  ⟨p.dispatchRsp, s.mem.loadLe p.dispatchRsp 8⟩

/-- The calls that wait are those that the record has open, and their return addresses are as they
were. -/
structure Nested (s : Session) : Prop where
  /-- They are open in the record. -/
  replay : replay OuterCall.fits s.record [] = some (s.pendingCallbacks.map s.outer)
  /-- They return what the procedure returns. -/
  plain : ∀ p ∈ s.pendingCallbacks, p.createWindowHwnd = none

theorem outer_next {a : UserAction} {p : PendingGuestCallback}
    (h : Disjoint (slot p) (s.writes a)) : (s.next a).outer p = s.outer p := by
  rw [outer, outer, loadLe_next h]

/-- Where no call begins or ends, the calls that wait stay. -/
theorem Nested.congr (h : s.Nested) {a : UserAction} (hg : KeepsFrames s a)
    (hrecord : (s.next a).record = s.record)
    (hpending : (s.next a).pendingCallbacks = s.pendingCallbacks) : (s.next a).Nested where
  replay := by
    rw [hrecord, hpending, h.replay]
    exact congrArg some (List.map_congr_left fun p hp => (outer_next (hg p hp)).symm)
  plain := hpending ▸ h.plain

/-- A call of the first thread. -/
theorem Nested.call (h : s.Nested) {c : UserCall} (hg : KeepsFrames s (.call c)) :
    (s.next (.call c)).Nested := by
  have hstep := c.step s.user
  by_cases hreq : ∃ request, (c.handle s.user).1 = .guestCallbackRequested request
  · obtain ⟨request, hreq⟩ := hreq
    have hnext : s.next (.call c) = s.beginGuestCallback request c.name := by
      rw [next, endCall, hreq, hstep.requested request hreq]
    cases hinst : installGuestCallbackFrame s.user.engine request s.callbackReturnTrampolineVa with
    | mk r e =>
      cases r with
      | none =>
        have hbegin : s.beginGuestCallback request c.name = s.withEngine e := by
          rw [beginGuestCallback, hinst]
        exact h.congr hg (by rw [hnext, hbegin]; rfl) (by rw [hnext, hbegin]; rfl)
      | some dispatchRsp =>
        obtain ⟨rfl, hagree⟩ := installGuestCallbackFrame_eq_some hinst
        have hold : s.pendingCallbacks.map (s.next (.call c)).outer =
            s.pendingCallbacks.map s.outer :=
          List.map_congr_left fun p hp => outer_next (hg p hp)
        -- the frame lies below the return address of the call
        have hslot : (s.next (.call c)).mem.loadLe s.user.engine.regs.rsp 8 =
            s.mem.loadLe s.user.engine.regs.rsp 8 := by
          rw [hnext, beginGuestCallback, hinst]
          refine hagree.loadLe fun x h1 _ hx => ?_
          have := hx.2
          omega
        have hrecord : (s.next (.call c)).record = s.record ++
            [.opens ⟨s.user.engine.regs.rsp, s.mem.loadLe s.user.engine.regs.rsp 8⟩] := by
          rw [hnext, beginGuestCallback, hinst]
        have hpending : (s.next (.call c)).pendingCallbacks = ⟨s.user.engine.regs.rsp, request,
            c.name, createWindowHwndForOuter c.name request.windowHandle⟩ ::
              s.pendingCallbacks := by
          rw [hnext, beginGuestCallback, hinst]
        refine ⟨?_, ?_⟩
        · rw [hrecord, hpending, replay_concat, h.replay, List.map_cons, hold, outer, hslot]
          rfl
        · intro p hp
          rw [hpending] at hp
          rcases List.mem_cons.mp hp with rfl | hp
          · exact createWindowHwndForOuter_name c _
          · exact h.plain p hp
  · have hnext : s.next (.call c) = { s with user := (c.handle s.user).2 } := by
      rw [next, endCall]
      split
      · rename_i request hr
        exact absurd ⟨request, hr⟩ hreq
      · rfl
    exact h.congr hg (by rw [hnext]) (by rw [hnext])

/-- A window procedure returns. -/
theorem Nested.trampoline (h : s.Nested) : (s.next .trampoline).Nested := by
  show s.completeGuestCallback.Nested
  have hmem := mem_completeGuestCallback s
  cases hpending : s.pendingCallbacks with
  | nil => rwa [completeGuestCallback, hpending]
  | cons p rest =>
    have hreplay := h.replay
    rw [hpending, List.map_cons] at hreplay
    have hrest : ∀ q ∈ rest, q.createWindowHwnd = none := fun q hq =>
      h.plain q (by rw [hpending]; exact .tail _ hq)
    have houter : rest.map s.completeGuestCallback.outer = rest.map s.outer := by
      refine List.map_congr_left fun q _ => ?_
      rw [outer, outer, hmem]
    cases hfinish : finishGuestCallback s.user.engine p.dispatchRsp p.createWindowHwnd with
    | mk r e =>
      cases r with
      | none =>
        have hcomplete : s.completeGuestCallback = { s.withEngine e with
            pendingCallbacks := rest, record := s.record ++ [.drops] } := by
          simp only [completeGuestCallback, hpending, hfinish]
        refine ⟨?_, by rwa [hcomplete]⟩
        rw [show s.completeGuestCallback.record = s.record ++ [.drops] by rw [hcomplete],
          show s.completeGuestCallback.pendingCallbacks = rest by rw [hcomplete],
          replay_concat, hreplay, houter]
        rfl
      | some value =>
        obtain ⟨hload, hvalue, hrsp, -⟩ := finishGuestCallback_eq_some hfinish
        have hcomplete : s.completeGuestCallback = { s.withEngine e with
            pendingCallbacks := rest
            record := s.record ++
              [.closes ⟨e.regs.rsp, value.2, s.user.engine.regs.rax, value.1⟩] } := by
          simp only [completeGuestCallback, hpending, hfinish]
        refine ⟨?_, by rwa [hcomplete]⟩
        have hfits : (s.outer p).fits ⟨e.regs.rsp, value.2, s.user.engine.regs.rax, value.1⟩ := by
          refine ⟨hrsp, hload, ?_⟩
          rw [hvalue, h.plain p (by rw [hpending]; exact .head _)]
          rfl
        rw [show s.completeGuestCallback.record = s.record ++
            [.closes ⟨e.regs.rsp, value.2, s.user.engine.regs.rax, value.1⟩] by rw [hcomplete],
          show s.completeGuestCallback.pendingCallbacks = rest by rw [hcomplete],
          replay_concat, hreplay, houter]
        exact if_pos hfits

/-- **An action that spares the return addresses keeps the calls nested.** -/
theorem Nested.next (h : s.Nested) {a : UserAction} (hg : KeepsFrames s a) :
    (s.next a).Nested := by
  cases a with
  | guest e => exact h.congr hg rfl rfl
  | call c => exact h.call hg
  | worker regs c => exact h.congr hg rfl rfl
  | trampoline => exact h.trampoline
  | postMessage m => exact h.congr hg rfl rfl
  | postWindowMessage w n p l => exact h.congr hg rfl rfl
  | setMessageQueueIdlePolicy p => exact h.congr hg rfl rfl

theorem Reached.nested (h : Reached KeepsFrames s) : s.Nested := by
  refine GuardedReach.invariant (I := fun s => Nested s) ?_ ?_ h
  · intro s hs
    refine ⟨?_, ?_⟩
    · rw [hs.record, hs.pendingCallbacks]
      rfl
    · rw [hs.pendingCallbacks]
      simp
  · rintro s a _ hs hg rfl
    exact hs.next hg

/-- **Calls return to their callers**: where no return address of a call that waits is written over,
a call that had a window procedure run returns to the address that it was called from, with its
return address popped and with the result of the procedure. What the procedure began in between has
ended. -/
theorem callbacks_return_to_callers (h : Reached KeepsFrames s)
    {before after : List (Nesting OuterCall Completion)} {c : Completion}
    (hrecord : s.record = before ++ .closes c :: after) :
    ∃ earlier o between, before = earlier ++ .opens o :: between ∧
      Balanced OuterCall.fits between ∧ c.rsp = (o.rsp + 8) % 2 ^ 64 ∧
      o.returnAddress = some c.returnAddress ∧ c.value = c.lresult := by
  have hreplay := h.nested.replay
  rw [hrecord] at hreplay
  exact exists_opening_of_closing hreplay

end Session

/-! ### From the queue to the window procedure -/

section messages

variable {u : User} {m : QueuedWindowMessage} {base ret v w : ℕ}

@[simp] theorem User.state_answer (u : User) (v : ℕ) : (u.answer v).2.state = u.state := by
  rw [answer]
  split <;> rfl

@[simp] theorem User.mem_answer (u : User) (v : ℕ) :
    (u.answer v).2.engine.mem = u.engine.mem := by
  have hmem := u.engine.returnFromWin64Api_mem v
  rw [answer]
  split
  · rename_i heq
    rwa [heq] at hmem
  · rename_i heq
    rwa [heq] at hmem

@[simp] theorem User.state_deliver (u : User) (m : QueuedWindowMessage) (v : ℕ) :
    (u.deliver m v).2.state = u.state := by
  rw [deliver]
  split
  · rw [state_answer]
  · rfl

/-- A call that returns has delivered the message. -/
theorem User.deliver_returned (h : (u.deliver m v).1 = .returned ret w) :
    writeMessageStructure u.engine.mem u.engine.regs.rcx m =
      (true, (u.deliver m v).2.engine.mem) := by
  rw [deliver] at h ⊢
  split
  · rename_i m' hm'
    rw [hm', mem_answer]
  · rename_i m' hm'
    rw [hm'] at h
    cases h

/-- **Fields come back**, when none lies over another. -/
theorem loadLe_writeFields {ws : List (ℕ × ℕ × ℕ)} {f f' : Flat}
    (h : writeFields base ws f = (true, f')) (hws : ws.Pairwise fun w w' => w.1 + w.2.1 ≤ w'.1)
    {x : ℕ × ℕ × ℕ} (hx : x ∈ ws) (hlt : x.2.2 < 256 ^ x.2.1) :
    base + x.1 < 2 ^ 64 ∧ f'.loadLe (base + x.1) x.2.1 = some x.2.2 := by
  induction ws generalizing f with
  | nil => cases hx
  | cons y ws ih =>
    rw [writeFields] at h
    split at h
    · rename_i f₁ hf₁
      obtain ⟨a, ha, hstore⟩ := Option.bind_eq_some_iff.mp hf₁
      obtain ⟨rfl, hbase⟩ := checkedAdd_eq_some.mp ha
      obtain ⟨rfl, hrw⟩ := Flat.storeLe_eq_some hstore
      obtain ⟨hhead, htail⟩ := List.pairwise_cons.mp hws
      rcases List.mem_cons.mp hx with rfl | hx
      · refine ⟨hbase, ?_⟩
        have hagree : Flat.AgreeOff {z | base + x.1 + x.2.1 ≤ z}
            (writeFields base ws (f.set (base + x.1) x.2.1 x.2.2)).2
            (f.set (base + x.1) x.2.1 x.2.2) := by
          refine agreeOff_writeFields _ fun y hy z h1 _ => ?_
          have := hhead y hy
          show _ ≤ z
          omega
        rw [h] at hagree
        rw [hagree.loadLe fun z _ h2 h3 => absurd h2 (not_lt.mpr h3)]
        have hback : (f.set (base + x.1) x.2.1 x.2.2).Rw (base + x.1) x.2.1 := hrw.congr rfl
        rw [hback.loadLe, Flat.get_set_of_lt hlt]
      · exact ih h htail hx
    · cases h

theorem messageFields_pairwise (m : QueuedWindowMessage) :
    (messageFields m).Pairwise fun w w' => w.1 + w.2.1 ≤ w'.1 := by
  simp [messageFields]

/-- What a `MSG` in memory says of a message. -/
structure MsgAt (f : Flat) (a : ℕ) (m : QueuedWindowMessage) : Prop where
  /-- The window. -/
  windowHandle : f.loadLe a 8 = some m.windowHandle.toNat
  /-- The number. -/
  message : f.loadLe (a + 8) 4 = some m.message.toNat
  /-- The word parameter. -/
  wordParameter : f.loadLe (a + 16) 8 = some m.wordParameter.toNat
  /-- The long parameter. -/
  longParameter : f.loadLe (a + 24) 8 = some m.longParameter.toNat
  /-- All of it has addresses. -/
  lt : a + 24 < 2 ^ 64

/-- **A message that was written is there.** -/
theorem msgAt_of_writeMessageStructure {f f' : Flat}
    (h : writeMessageStructure f base m = (true, f')) : MsgAt f' base m := by
  have hback : ∀ x ∈ messageFields m, x.2.2 < 256 ^ x.2.1 →
      base + x.1 < 2 ^ 64 ∧ f'.loadLe (base + x.1) x.2.1 = some x.2.2 := fun x hx hlt =>
    loadLe_writeFields h (messageFields_pairwise m) hx hlt
  have h64 : ∀ n : UInt64, n.toNat < 256 ^ 8 := fun n => n.toNat_lt.trans_eq (by norm_num)
  have h32 : ∀ n : UInt32, n.toNat < 256 ^ 4 := fun n => n.toNat_lt.trans_eq (by norm_num)
  have hlong := hback (24, 8, m.longParameter.toNat) (by simp [messageFields]) (h64 _)
  exact ⟨(hback (0, 8, _) (by simp [messageFields]) (h64 m.windowHandle)).2,
    (hback (8, 4, _) (by simp [messageFields]) (h32 m.message)).2,
    (hback (16, 8, _) (by simp [messageFields]) (h64 m.wordParameter)).2, hlong.2, hlong.1⟩

/-- A receiver that took a message and returned has put it into the `MSG`. -/
theorem msgAt_of_taken {c : UserCall} (hc : c = .getMessageA ∨ c = .peekMessageA)
    {f : MessageFilter} (hmail : (c.handle u).2.state.mail = u.state.mail ++ [.taken f m])
    (hret : (c.handle u).1 = .returned ret v) :
    MsgAt (c.handle u).2.engine.mem u.engine.regs.rcx m := by
  have hsame : ∀ {mail : List (Mail QueuedWindowMessage MessageFilter)},
      mail ≠ mail ++ [.taken f m] := by
    intro mail h
    simpa using congrArg List.length h
  have hdeliver : ∀ {f' : MessageFilter} {i v' : ℕ} {m' : QueuedWindowMessage},
      (User.deliver { u with state := u.state.remove f' i m' } m' v').2.state.mail =
        u.state.mail ++ [.taken f m] →
      (User.deliver { u with state := u.state.remove f' i m' } m' v').1 = .returned ret v →
      MsgAt (User.deliver { u with state := u.state.remove f' i m' } m' v').2.engine.mem
        u.engine.regs.rcx m := by
    intro f' i v' m' hmail hret
    rw [User.state_deliver] at hmail
    have hlast : [Mail.taken f' m'] = [.taken f m] := List.append_cancel_left hmail
    obtain ⟨-, rfl⟩ := Mail.taken.inj (List.singleton_inj.mp hlast)
    exact msgAt_of_writeMessageStructure (User.deliver_returned hret)
  rcases hc with rfl | rfl
  · simp only [UserCall.handle, handleGetMessageA] at hmail hret ⊢
    split at hmail
    · rw [User.state_answer] at hmail
      exact absurd hmail hsame
    · rename_i hrcx
      rw [if_neg hrcx] at hret ⊢
      cases hfound : matchingMessage u.state.messageQueue (.ofRegs u.engine.regs) with
      | some found =>
        simp only [hfound] at hmail hret ⊢
        exact hdeliver hmail hret
      | none =>
        simp only [hfound] at hmail hret
        cases hpolicy : u.state.messageQueueIdlePolicy with
        | exitOnIdle =>
          simp only [hpolicy] at hmail
          cases hstamp : u.state.stamp with
          | none =>
            rw [hstamp] at hmail
            exact absurd hmail hsame
          | some p =>
            obtain ⟨t, st⟩ := p
            obtain ⟨-, -, hp⟩ := UserState.stamp_eq_some hstamp
            rw [hstamp, User.andThen, User.state_deliver, hp] at hmail
            exact absurd hmail hsame
        | yieldOnIdle =>
          simp only [hpolicy] at hret
          cases hret
  · simp only [UserCall.handle, handlePeekMessageA] at hmail hret ⊢
    cases hfound : matchingMessage u.state.messageQueue (.ofRegs u.engine.regs) with
    | some found =>
      simp only [hfound] at hmail hret ⊢
      split at hmail
      · rw [User.state_deliver] at hmail
        exact absurd hmail hsame
      · rename_i hkeep
        rw [if_neg hkeep] at hret ⊢
        exact hdeliver hmail hret
    | none =>
      simp only [hfound, User.state_answer] at hmail
      exact absurd hmail hsame

/-- The request for a message in memory. -/
theorem handleDispatchMessageA_of_msgAt {window : WindowRecord}
    (h : MsgAt u.engine.mem u.engine.regs.rcx m) (hrcx : u.engine.regs.rcx ≠ 0)
    (hwindow : u.state.findWindow m.windowHandle.toNat = some window)
    (hproc : window.windowProc ≠ 0) :
    handleDispatchMessageA u = (.guestCallbackRequested
      (window.request m.windowHandle.toNat m.message.toNat m.wordParameter.toNat
        m.longParameter.toNat window.unicode), u) := by
  have hlt := h.lt
  have hadd : ∀ k ≤ 24, checkedAdd u.engine.regs.rcx k = some (u.engine.regs.rcx + k) :=
    fun k hk => checkedAdd_eq_some.mpr ⟨rfl, by omega⟩
  simp only [handleDispatchMessageA, readCheckedField]
  rw [if_neg hrcx, hadd 8 (by omega), hadd 16 (by omega), hadd 24 (by omega)]
  simp only [Option.bind_some, h.windowHandle, h.message, h.wordParameter, h.longParameter,
    User.andThen, hwindow]
  exact if_neg hproc

end messages

namespace Session

variable {s s' : Session}

/-- The action does not write over the `MSG` at `a`. -/
def KeepsMsg (a : ℕ) (s : Session) (act : UserAction) : Prop :=
  Disjoint (Set.Ico a (a + 48)) (s.writes act)

theorem msgAt_next {a : ℕ} {m : QueuedWindowMessage} {act : UserAction} (h : MsgAt s.mem a m)
    (hg : KeepsMsg a s act) : MsgAt (s.next act).mem a m := by
  have hload : ∀ {b n : ℕ}, a ≤ b → b + n ≤ a + 48 →
      (s.next act).mem.loadLe b n = s.mem.loadLe b n := fun h1 h2 =>
    loadLe_next (hg.mono_left (Set.Ico_subset_Ico h1 h2))
  exact ⟨(hload le_rfl (by omega)).trans h.windowHandle,
    (hload (by omega) (by omega)).trans h.message,
    (hload (by omega) (by omega)).trans h.wordParameter,
    (hload (by omega) (by omega)).trans h.longParameter, h.lt⟩

/-- Windows stay, with their procedures. -/
theorem findWindow_change {T : Prop} {st st' : UserState} (hc : st.Change T st') {handle : ℕ}
    {window : WindowRecord} (h : st.findWindow handle = some window) :
    st'.findWindow handle = some window := by
  have hsame : ∀ st'' : UserState, st''.windows = st.windows →
      st''.findWindow handle = some window := by
    intro st'' hw
    rwa [UserState.findWindow, hw]
  cases hc with
  | keep => exact h
  | stamp ht =>
    obtain ⟨-, -, rfl⟩ := UserState.stamp_eq_some ht
    exact hsame _ rfl
  | posted hp =>
    obtain ⟨-, rfl⟩ := UserState.postWindowMessage_eq_some hp
    exact hsame _ rfl
  | removed hm => exact hsame _ rfl
  | registered hr =>
    rcases UserState.registerWindowClass_eq_some hr with rfl | ⟨-, -, -, -, rfl⟩
    · exact h
    · exact hsame _ rfl
  | created hr =>
    rcases UserState.createWindowRecord_eq_some hr with rfl | ⟨-, -, rfl⟩
    · exact h
    · rw [UserState.findWindow, List.find?_append]
      rw [UserState.findWindow] at h
      rw [h]
      rfl
  | titled _ text => exact hsame _ rfl
  | idled policy => exact hsame _ rfl

theorem findWindow_next {handle : ℕ} {window : WindowRecord}
    (h : s.state.findWindow handle = some window) (a : UserAction) :
    (s.next a).state.findWindow handle = some window :=
  next_keeps (I := fun st => st.findWindow handle = some window)
    (fun _ _ _ hc hst => findWindow_change hc hst) (fun _ _ hst => hst) s a h

/-- **Messages reach window procedures as they were posted.** A call of `GetMessageA` or
`PeekMessageA` takes a message from the queue and returns; in any run from there on in which nobody
writes over the `MSG`, `DispatchMessageA` enters the procedure of the window with the handle, the
number and the parameters of that message, on a frame that returns to the trampoline. -/
theorem dispatched_as_posted {c : UserCall} (hc : c = .getMessageA ∨ c = .peekMessageA)
    {f : MessageFilter} {m : QueuedWindowMessage} {r v a rsp : ℕ} {window : WindowRecord}
    (htaken : (s.next (.call c)).state.mail = s.state.mail ++ [.taken f m])
    (hret : (c.handle s.user).1 = .returned r v)
    (ha : s.user.engine.regs.rcx = a) (hne : a ≠ 0)
    (hwindow : s.state.findWindow m.windowHandle.toNat = some window)
    (hproc : window.windowProc ≠ 0)
    (hpath : GuardedPath (KeepsMsg a) (fun s act s' => s' = s.next act) (s.next (.call c)) s')
    (hrcx : s'.user.engine.regs.rcx = a) (hrsp : s'.user.engine.regs.rsp = rsp)
    (hroom : 0x30 ≤ rsp) (hlt : rsp < 2 ^ 64) (hstack : s'.mem.Rw (rsp - 0x30) 0x28) :
    (s'.next (.call .dispatchMessageA)).user.engine.regs =
        ⟨s'.user.engine.regs.rax, m.windowHandle.toNat, m.message.toNat, m.wordParameter.toNat,
          m.longParameter.toNat, rsp - 0x30, window.windowProc⟩ ∧
      (s'.next (.call .dispatchMessageA)).mem.loadLe (rsp - 0x30) 8 =
        some (s'.callbackReturnTrampolineVa % 2 ^ 64) ∧
      (s'.next (.call .dispatchMessageA)).pendingCallbacks.map PendingGuestCallback.dispatchRsp =
        rsp :: s'.pendingCallbacks.map PendingGuestCallback.dispatchRsp := by
  have hfirst : MsgAt (s.next (.call c)).mem a m := by
    rw [next, state_endCall] at htaken
    have hend : s.next (.call c) = { s with user := (c.handle s.user).2 } := by
      rw [next, endCall, hret]
    rw [hend, ← ha]
    exact msgAt_of_taken hc htaken hret
  obtain ⟨hmsg, hfound⟩ : MsgAt s'.mem a m ∧
      s'.state.findWindow m.windowHandle.toNat = some window := by
    refine GuardedPath.invariant (I := fun s => MsgAt s.mem a m ∧
      s.state.findWindow m.windowHandle.toNat = some window) ?_ hpath
      ⟨hfirst, findWindow_next hwindow _⟩
    rintro s₁ act _ ⟨h1, h2⟩ hg rfl
    exact ⟨msgAt_next h1 hg, findWindow_next h2 act⟩
  have hhandle := handleDispatchMessageA_of_msgAt (u := s'.user) (m := m) (hrcx ▸ hmsg)
    (hrcx ▸ hne) hfound hproc
  subst hrsp
  obtain ⟨mem, hinst, hload⟩ := installGuestCallbackFrame_of_rw (window.request
    m.windowHandle.toNat m.message.toNat m.wordParameter.toNat m.longParameter.toNat window.unicode)
    s'.callbackReturnTrampolineVa hroom hlt hstack
  have hnext : s'.next (.call .dispatchMessageA) = s'.beginGuestCallback (window.request
      m.windowHandle.toNat m.message.toNat m.wordParameter.toNat m.longParameter.toNat
      window.unicode) UserCall.dispatchMessageA.name := by
    rw [next, endCall, UserCall.handle, hhandle]
  rw [hnext, beginGuestCallback, hinst]
  exact ⟨rfl, hload, rfl⟩

/-! ### A window, a message and its procedure -/

theorem writes_resume (s : Session) (regs : Regs) : s.writes (s.resume regs) = ∅ := by
  ext x
  simp [writes, resume, mem]

/-- The procedure is run and returns. -/
def deskDone : Session :=
  let s₁ := deskTaken.next (.call .dispatchMessageA)
  let s₂ := s₁.next (s₁.resume ⟨7, 0, 0, 0, 0, 0x8fd8, 0x6000⟩)
  s₂.next .trampoline

theorem keepsFrames_resume (s : Session) (regs : Regs) : KeepsFrames s (s.resume regs) := by
  intro p _
  rw [writes_resume]
  exact Set.disjoint_empty _

theorem keepsFrames_of_isEmpty {s : Session} (h : s.pendingCallbacks.isEmpty = true)
    (a : UserAction) : KeepsFrames s a := by
  intro p hp
  rw [List.isEmpty_iff.mp h] at hp
  cases hp

theorem deskClass_reached : Reached KeepsFrames deskClass :=
  .step (.step (.init desk_starts) (keepsFrames_resume _ _) rfl)
    (keepsFrames_of_isEmpty rfl (.call .registerClassExA)) rfl

theorem deskWindow_reached : Reached KeepsFrames deskWindow :=
  .step (.step deskClass_reached (keepsFrames_resume _ _) rfl)
    (keepsFrames_of_isEmpty rfl (.call .sendMessageA)) rfl

theorem deskOpen_reached : Reached KeepsFrames deskOpen :=
  .step (.step deskWindow_reached
    (keepsFrames_of_isEmpty rfl (.postWindowMessage 0x10000 0x400 1 2)) rfl)
    (keepsFrames_resume _ _) rfl

theorem deskTaken_reached : Reached KeepsFrames deskTaken := by
  refine .step (.step (o := .call .getMessageA) deskOpen_reached ?_ rfl)
    (keepsFrames_resume _ _) rfl
  exact keepsFrames_of_isEmpty rfl _

theorem deskDone_reached : Reached KeepsFrames deskDone := by
  refine .step (o := .trampoline) (.step (.step (o := .call .dispatchMessageA) deskTaken_reached ?_
    rfl) (keepsFrames_resume _ _) rfl) (fun p _ => Set.disjoint_empty _) rfl
  exact keepsFrames_of_isEmpty rfl _

theorem callbacks_return_to_callers_desk :
    ∃ earlier o between, [Nesting.opens ⟨0x9000, some 0⟩] = earlier ++ .opens o :: between ∧
      Balanced OuterCall.fits between ∧ 0x9008 = (o.rsp + 8) % 2 ^ 64 ∧
      o.returnAddress = some 0 ∧ 7 = 7 :=
  callbacks_return_to_callers deskDone_reached (c := ⟨0x9008, 0, 7, 7⟩)
    (show deskDone.record = [.opens ⟨0x9000, some 0⟩] ++ .closes ⟨0x9008, 0, 7, 7⟩ :: [] from rfl)

theorem dispatched_as_posted_desk :
    (deskTaken.next (.call .dispatchMessageA)).user.engine.regs =
        ⟨1, 0x10000, 0x400, 1, 2, 0x8fd0, 0x7000⟩ ∧
      (deskTaken.next (.call .dispatchMessageA)).mem.loadLe 0x8fd0 8 = some (0x6000 % 2 ^ 64) ∧
      (deskTaken.next (.call .dispatchMessageA)).pendingCallbacks.map
        PendingGuestCallback.dispatchRsp = [0x9000] := by
  have hsome : (deskOpen.state.findWindow 0x10000).isSome = true := rfl
  obtain ⟨window, hwindow⟩ := Option.isSome_iff_exists.mp hsome
  have hproc : (deskOpen.state.findWindow 0x10000).map WindowRecord.windowProc = some 0x7000 := rfl
  rw [hwindow, Option.map_some, Option.some.injEq] at hproc
  have hpath : GuardedPath (KeepsMsg 0x4000) (fun s act s' => s' = s.next act)
      (deskOpen.next (.call .getMessageA)) deskTaken := by
    refine .single ⟨resume _ _, ?_, rfl⟩
    rw [KeepsMsg, writes_resume]
    exact Set.disjoint_empty _
  have hstack : deskTaken.mem.Rw (0x9000 - 0x30) 0x28 := by
    intro x _ _
    have h₁ := (agreeOff_call deskOpen .getMessageA).writable
    have h₂ := (agreeOff_call (deskClass.next
      (deskClass.resume ⟨0, 0, 0x220, 0, 0x3000, 0x9000, 0⟩)) .sendMessageA).writable
    have h₃ := (agreeOff_call (desk.next (desk.resume ⟨0, 0x1000, 0, 0, 0, 0x9000, 0⟩))
      .registerClassExA).writable
    exact (congrFun h₁ x).trans ((congrFun h₂ x).trans (congrFun h₃ x))
  have hrun := dispatched_as_posted (c := .getMessageA) (.inl rfl) (f := ⟨0, 0, 0⟩)
    (m := ⟨0x10000, 0x400, 1, 2, 1, 0, 0⟩) (r := 0) (v := 1) (a := 0x4000)
    rfl rfl rfl (by decide) hwindow (by rw [hproc]; decide) hpath
    rfl rfl (by decide) (by decide) hstack
  rwa [hproc] at hrun

end Session

end Wie
