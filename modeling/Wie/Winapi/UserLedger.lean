import Wie.Winapi.UserRun

/-!
# Messages, classes and windows over all runs

The queue is a mailbox: what is posted is taken once, by a receiver that accepts it, and in order as
far as the filters of the receivers allow. Classes and windows are kept apart by what they are
looked up with.

## Main definitions

* `UserState.Accounted`, `UserState.Timed`, `UserState.Registered` — the invariants

## Main results

* `Session.messages_conserved` — no message is lost or duplicated, and none overtakes another that
  the filter it was taken with accepts
* `Session.times_increase` — messages posted by the guest carry increasing time stamps
* `Session.windows_registered` — what is looked up is found, and is the only one
-/

namespace Wie

/-! ### Messages -/

/-- The queue, accounted for. -/
def UserState.Accounted (s : UserState) : Prop :=
  ∃ L : Ledger MessageFilter, L.Accounts MessageFilter.accepts s.mail s.messageQueue

namespace UserState

variable {s s' : UserState}

theorem stamp_eq_some {t : UInt32} (h : s.stamp = some (t, s')) :
    t = s.nextMessageTime ∧ s.nextMessageTime.toNat + 1 < 2 ^ 32 ∧
      s' = { s with nextMessageTime := s.nextMessageTime + 1 } := by
  rw [stamp, Option.ite_none_right_eq_some] at h
  obtain ⟨hlt, heq⟩ := h
  obtain ⟨rfl, rfl⟩ := Prod.mk.inj (Option.some.inj heq)
  exact ⟨rfl, hlt, rfl⟩

theorem postWindowMessage_eq_some {windowHandle wordParameter longParameter : UInt64}
    {message : UInt32}
    (h : s.postWindowMessage windowHandle message wordParameter longParameter = some s') :
    s.nextMessageTime.toNat + 1 < 2 ^ 32 ∧
      s' = ({ s with nextMessageTime := s.nextMessageTime + 1 } : UserState).push
        ⟨windowHandle, message, wordParameter, longParameter, s.nextMessageTime, 0, 0⟩ := by
  obtain ⟨⟨t, st⟩, hp, rfl⟩ := Option.map_eq_some_iff.mp h
  obtain ⟨ht, hlt, hs⟩ := stamp_eq_some hp
  exact ⟨hlt, by rw [ht, hs]⟩

theorem Accounted.push (h : s.Accounted) (m : QueuedWindowMessage) : (s.push m).Accounted := by
  obtain ⟨L, hL⟩ := h
  exact ⟨_, hL.post m⟩

theorem Accounted.remove (h : s.Accounted) {f : MessageFilter} {index : ℕ}
    {m : QueuedWindowMessage} (hm : matchingMessage s.messageQueue f = some (index, m)) :
    (s.remove f index m).Accounted := by
  obtain ⟨L, hL⟩ := h
  obtain ⟨i, hi, hget⟩ := Option.bind_eq_some_iff.mp hm
  obtain ⟨l, x, r, hqueue, hx, herase, hacc, hbefore⟩ := exists_split_of_findIdx? hi
  rw [hx, Option.map_some] at hget
  obtain ⟨rfl, rfl⟩ := Prod.mk.inj (Option.some.inj hget)
  obtain ⟨L', hL'⟩ := hL.take hqueue hacc hbefore
  refine ⟨L', ?_⟩
  show L'.Accounts _ _ (s.messageQueue.eraseIdx i)
  rw [herase]
  exact hL'

theorem registerWindowClass_eq_some {r : WindowClassRecord} {v : ℕ}
    (h : s.registerWindowClass r = some (v, s')) :
    s' = s ∨ s.nextWindowClassAtom ≠ 0 ∧ s.nextWindowClassAtom + 1 < 2 ^ 16 ∧
      r.windowProc ≠ 0 ∧
      (∀ c ∈ s.windowClasses, ¬ (eqIgnoreAsciiCase c.className r.className ∧
        c.unicode = r.unicode)) ∧
      s' = { s with
        nextWindowClassAtom := s.nextWindowClassAtom + 1
        windowClasses := s.windowClasses ++ [{ r with atom := s.nextWindowClassAtom }] } := by
  rw [registerWindowClass] at h
  split at h
  · exact .inl (Prod.mk.inj (Option.some.inj h)).2.symm
  · rename_i hvalid
    split at h
    · exact .inl (Prod.mk.inj (Option.some.inj h)).2.symm
    · rename_i hfresh
      split at h
      · exact .inl (Prod.mk.inj (Option.some.inj h)).2.symm
      · rename_i hatom
        rw [Option.ite_none_right_eq_some] at h
        refine .inr ⟨hatom, h.1, fun hp => hvalid (.inr hp), ?_,
          (Prod.mk.inj (Option.some.inj h.2)).2.symm⟩
        simpa using hfresh

theorem createWindowRecord_eq_some {request : CreateWindowRequest} {unicode : Bool} {v : ℕ}
    (h : s.createWindowRecord request unicode = some (v, s')) :
    s' = s ∨ s.nextWindowHandle ≠ 0 ∧ s.nextWindowHandle + 1 < 2 ^ 64 ∧
      s' = { s with
        nextWindowHandle := s.nextWindowHandle + 1
        windows := s.windows ++ [request.record s.nextWindowHandle
          (s.findWindowClass request.classIdentifier unicode) unicode] } := by
  rw [createWindowRecord] at h
  split at h
  · exact .inl (Prod.mk.inj (Option.some.inj h)).2.symm
  · rename_i hhandle
    rw [Option.ite_none_right_eq_some] at h
    exact .inr ⟨hhandle, h.1, (Prod.mk.inj (Option.some.inj h.2)).2.symm⟩

/-- **A change keeps the account.** -/
theorem Change.accounted {T : Prop} (hc : s.Change T s') (h : s.Accounted) : s'.Accounted := by
  cases hc with
  | keep => exact h
  | stamp ht =>
    obtain ⟨-, -, rfl⟩ := stamp_eq_some ht
    exact h
  | posted hp =>
    obtain ⟨-, rfl⟩ := postWindowMessage_eq_some hp
    exact Accounted.push (s := { s with nextMessageTime := s.nextMessageTime + 1 }) h _
  | removed hm => exact h.remove hm
  | registered hr =>
    rcases registerWindowClass_eq_some hr with rfl | ⟨-, -, -, -, rfl⟩ <;> exact h
  | created hr =>
    rcases createWindowRecord_eq_some hr with rfl | ⟨-, -, rfl⟩ <;> exact h
  | titled _ text => exact h
  | idled policy => exact h

end UserState

namespace Session

variable {s : Session} {guard : Session → UserAction → Prop}

theorem Reached.accounted (h : Reached guard s) : s.state.Accounted := by
  refine GuardedReach.invariant (I := fun s => s.state.Accounted) ?_ ?_ h
  · intro s hs
    show ∃ L : Ledger MessageFilter, L.Accounts _ s.state.mail s.state.messageQueue
    rw [hs.mail, hs.messageQueue]
    exact ⟨_, Ledger.accounts_nil⟩
  · rintro s a _ hs - rfl
    exact next_keeps (fun _ _ _ hc => hc.accounted) (fun _ m h => h.push m) s a hs

/-- **Messages are neither lost nor duplicated**: in every run, whatever calls whatever threads
make, the messages posted are those that were taken and those that wait, and those that wait do so
in the order in which they were posted. A message was taken by a call whose filter accepts it, at a
time when all earlier messages that this filter accepts had been taken. -/
theorem messages_conserved (h : Reached AnyAction s) :
    ((itemsTaken s.state.mail).map Prod.snd ++ s.state.messageQueue).Perm
        (itemsPosted s.state.mail) ∧
      s.state.messageQueue.Sublist (itemsPosted s.state.mail) ∧
      (∀ t ∈ itemsTaken s.state.mail, t.1.accepts t.2 = true) ∧
      ∃ numbers : List ℕ,
        (itemsTaken s.state.mail).map (some ∘ Prod.snd) =
          numbers.map (fun n => (itemsPosted s.state.mail)[n]?) ∧
        numbers.Nodup ∧
        ∀ k n t, numbers[k]? = some n → (itemsTaken s.state.mail)[k]? = some t →
          ∀ n' < n, ∀ m, (itemsPosted s.state.mail)[n']? = some m → t.1.accepts m = true →
            n' ∈ numbers.take k := by
  obtain ⟨L, hL⟩ := h.accounted
  refine ⟨hL.conserved, hL.sublist, hL.accepted, L.out.map Prod.fst, ?_, ?_, ?_⟩
  · have heq := congrArg (List.map (Option.map Prod.snd)) hL.taken_eq
    simpa [Function.comp_def] using heq
  · have hnodup := (hL.perm.nodup_iff).mpr List.nodup_range
    exact (List.nodup_append.mp hnodup).1
  · intro k n t hn ht n' hlt m hm hacc
    rw [List.getElem?_map, Option.map_eq_some_iff] at hn
    obtain ⟨o, ho, rfl⟩ := hn
    have heq := congrArg (fun l => l[k]?) hL.taken_eq
    simp only [List.getElem?_map, ht, ho, Option.map_some, Option.some.injEq] at heq
    obtain ⟨x, -, hx⟩ := Option.map_eq_some_iff.mp heq.symm
    rw [← List.map_take]
    refine hL.first k o ho n' hlt m hm ?_
    rwa [← congrArg Prod.fst hx] at hacc

end Session

/-! ### Time stamps -/

/-- The posted messages carry increasing stamps, below the next one. -/
structure UserState.Timed (s : UserState) : Prop where
  /-- Increasing. -/
  increasing : (itemsPosted s.mail).Pairwise fun m m' => m.time < m'.time
  /-- Below the next one. -/
  below : ∀ m ∈ itemsPosted s.mail, m.time < s.nextMessageTime

namespace UserState

variable {s s' : UserState}

theorem lt_succ_time (h : s.nextMessageTime.toNat + 1 < 2 ^ 32) :
    s.nextMessageTime < s.nextMessageTime + 1 := by
  rw [UInt32.lt_iff_toNat_lt, UInt32.toNat_add, UInt32.toNat_one, Nat.mod_eq_of_lt h]
  exact Nat.lt_succ_self _

theorem Timed.congr (h : s.Timed) (hmail : itemsPosted s'.mail = itemsPosted s.mail)
    (htime : s'.nextMessageTime = s.nextMessageTime) : s'.Timed := by
  refine ⟨?_, ?_⟩
  · rw [hmail]
    exact h.increasing
  · rw [hmail, htime]
    exact h.below

theorem Timed.stamp (h : s.Timed) (hlt : s.nextMessageTime.toNat + 1 < 2 ^ 32) :
    ({ s with nextMessageTime := s.nextMessageTime + 1 } : UserState).Timed :=
  ⟨h.increasing, fun m hm => UInt32.lt_trans (h.below m hm) (lt_succ_time hlt)⟩

/-- **A change keeps the stamps in order.** -/
theorem Change.timed {T : Prop} (hc : s.Change T s') (h : s.Timed) : s'.Timed := by
  cases hc with
  | keep => exact h
  | stamp ht =>
    obtain ⟨-, hlt, rfl⟩ := stamp_eq_some ht
    exact h.stamp hlt
  | posted hp =>
    obtain ⟨hlt, rfl⟩ := postWindowMessage_eq_some hp
    have hnext := lt_succ_time hlt
    refine ⟨?_, ?_⟩
    · show (itemsPosted (s.mail ++ _)).Pairwise _
      rw [itemsPosted_posted]
      refine List.pairwise_append.mpr ⟨h.increasing, List.pairwise_singleton _ _, ?_⟩
      intro m hm m' hm'
      rw [List.mem_singleton.mp hm']
      exact h.below m hm
    · intro m hm
      have hm : m ∈ itemsPosted (s.mail ++ _) := hm
      rw [itemsPosted_posted] at hm
      rcases List.mem_append.mp hm with hm | hm
      · exact UInt32.lt_trans (h.below m hm) hnext
      · rw [List.mem_singleton.mp hm]
        exact hnext
  | removed hm => exact h.congr (itemsPosted_taken _ _ _) rfl
  | registered hr =>
    rcases registerWindowClass_eq_some hr with rfl | ⟨-, -, -, -, rfl⟩
    · exact h
    · exact h.congr rfl rfl
  | created hr =>
    rcases createWindowRecord_eq_some hr with rfl | ⟨-, -, rfl⟩
    · exact h
    · exact h.congr rfl rfl
  | titled _ text => exact ⟨h.increasing, h.below⟩
  | idled policy => exact ⟨h.increasing, h.below⟩

end UserState

/-- **Messages carry increasing time stamps**, as long as the host gives each one its own. -/
theorem Session.times_increase {s : Session} (h : Session.Reached Session.Stamped s) :
    (itemsPosted s.state.mail).Pairwise fun m m' => m.time < m'.time := by
  refine (GuardedReach.invariant (I := fun s : Session => s.state.Timed) ?_ ?_ h).increasing
  · intro s hs
    refine ⟨?_, ?_⟩ <;> rw [hs.mail]
    · exact .nil
    · simp
  · rintro s a _ hs hg rfl
    exact (s.next_change hg).timed hs

/-! ### Classes and windows -/

/-- Classes and windows are told apart by their atoms, names and handles, and procedures are those
of classes. -/
structure UserState.Registered (s : UserState) : Prop where
  /-- Atoms go up. -/
  atoms : s.windowClasses.Pairwise fun c c' => c.atom < c'.atom
  /-- All atoms are used up. -/
  atom_lt : ∀ c ∈ s.windowClasses, c.atom < s.nextWindowClassAtom
  /-- A name is registered once for each kind. -/
  names : s.windowClasses.Pairwise fun c c' =>
    ¬ (eqIgnoreAsciiCase c.className c'.className ∧ c.unicode = c'.unicode)
  /-- Handles go up. -/
  handles : s.windows.Pairwise fun w w' => w.handle < w'.handle
  /-- All handles are used up. -/
  handle_lt : ∀ w ∈ s.windows, w.handle < s.nextWindowHandle
  /-- A procedure is that of a class. -/
  procs : ∀ w ∈ s.windows, w.windowProc ≠ 0 → ∃ c ∈ s.windowClasses,
    c.atom = w.classAtom ∧ c.windowProc = w.windowProc ∧ c.unicode = w.unicode

namespace UserState

variable {s s' : UserState}

theorem mem_of_findWindowClass {identifier : WindowClassIdentifier} {unicode : Bool}
    {c : WindowClassRecord} (h : s.findWindowClass identifier unicode = some c) :
    c ∈ s.windowClasses := by
  rcases Option.or_eq_some_iff.mp h with h | ⟨-, h⟩
  · exact List.mem_of_find?_eq_some h
  · exact List.mem_of_find?_eq_some h

/-- Classes and windows that a change leaves alone. -/
theorem Registered.congr (h : s.Registered) (hc : s'.windowClasses = s.windowClasses)
    (ha : s'.nextWindowClassAtom = s.nextWindowClassAtom) (hw : s'.windows = s.windows)
    (hn : s'.nextWindowHandle = s.nextWindowHandle) : s'.Registered := by
  constructor
  · exact hc ▸ h.atoms
  · rw [hc, ha]
    exact h.atom_lt
  · exact hc ▸ h.names
  · exact hw ▸ h.handles
  · rw [hw, hn]
    exact h.handle_lt
  · rw [hw, hc]
    exact h.procs

/-- A class is added. -/
theorem Registered.addClass (h : s.Registered) (r : WindowClassRecord)
    (hfresh : ∀ c ∈ s.windowClasses, ¬ (eqIgnoreAsciiCase c.className r.className ∧
      c.unicode = r.unicode)) :
    ({ s with
      nextWindowClassAtom := s.nextWindowClassAtom + 1
      windowClasses := s.windowClasses ++ [{ r with atom := s.nextWindowClassAtom }] } :
      UserState).Registered where
  atoms := by
    refine List.pairwise_append.mpr ⟨h.atoms, List.pairwise_singleton _ _, ?_⟩
    intro c hc c' hc'
    rw [List.mem_singleton.mp hc']
    exact h.atom_lt c hc
  atom_lt := by
    intro c hc
    rcases List.mem_append.mp hc with hc | hc
    · exact (h.atom_lt c hc).trans (Nat.lt_succ_self _)
    · rw [List.mem_singleton.mp hc]
      exact Nat.lt_succ_self _
  names := by
    refine List.pairwise_append.mpr ⟨h.names, List.pairwise_singleton _ _, ?_⟩
    intro c hc c' hc'
    rw [List.mem_singleton.mp hc']
    exact hfresh c hc
  handles := h.handles
  handle_lt := h.handle_lt
  procs := by
    intro w hw hp
    obtain ⟨c, hc, hfound⟩ := h.procs w hw hp
    exact ⟨c, List.mem_append_left _ hc, hfound⟩

/-- A window is added. -/
theorem Registered.addWindow (h : s.Registered) (request : CreateWindowRequest) (unicode : Bool) :
    ({ s with
      nextWindowHandle := s.nextWindowHandle + 1
      windows := s.windows ++ [request.record s.nextWindowHandle
        (s.findWindowClass request.classIdentifier unicode) unicode] } : UserState).Registered where
  atoms := h.atoms
  atom_lt := h.atom_lt
  names := h.names
  handles := by
    refine List.pairwise_append.mpr ⟨h.handles, List.pairwise_singleton _ _, ?_⟩
    intro w hw w' hw'
    rw [List.mem_singleton.mp hw']
    exact h.handle_lt w hw
  handle_lt := by
    intro w hw
    rcases List.mem_append.mp hw with hw | hw
    · exact (h.handle_lt w hw).trans (Nat.lt_succ_self _)
    · rw [List.mem_singleton.mp hw]
      exact Nat.lt_succ_self _
  procs := by
    intro w hw hp
    rcases List.mem_append.mp hw with hw | hw
    · exact h.procs w hw hp
    · rw [List.mem_singleton.mp hw] at hp ⊢
      cases hclass : s.findWindowClass request.classIdentifier unicode with
      | none =>
        rw [hclass] at hp
        exact absurd rfl hp
      | some c => exact ⟨c, mem_of_findWindowClass hclass, rfl, rfl, rfl⟩

/-- **A change keeps classes and windows apart.** -/
theorem Change.registered_of {T : Prop} (hc : s.Change T s') (h : s.Registered) :
    s'.Registered := by
  cases hc with
  | keep => exact h
  | stamp ht =>
    obtain ⟨-, -, rfl⟩ := stamp_eq_some ht
    exact h.congr rfl rfl rfl rfl
  | posted hp =>
    obtain ⟨-, rfl⟩ := postWindowMessage_eq_some hp
    exact h.congr rfl rfl rfl rfl
  | removed hm => exact h.congr rfl rfl rfl rfl
  | registered hr =>
    rcases registerWindowClass_eq_some hr with rfl | ⟨-, -, -, hfresh, rfl⟩
    · exact h
    · exact h.addClass _ hfresh
  | created hr =>
    rcases createWindowRecord_eq_some hr with rfl | ⟨-, -, rfl⟩
    · exact h
    · exact h.addWindow _ _
  | titled _ text => exact h.congr rfl rfl rfl rfl
  | idled policy => exact h.congr rfl rfl rfl rfl

/-- Classes and windows are only added. -/
theorem Change.grows {T : Prop} (hc : s.Change T s') :
    s.windowClasses <+: s'.windowClasses ∧ s.windows <+: s'.windows := by
  have hsame : s.windowClasses <+: s.windowClasses ∧ s.windows <+: s.windows :=
    ⟨List.prefix_rfl, List.prefix_rfl⟩
  cases hc with
  | keep => exact hsame
  | stamp ht =>
    obtain ⟨-, -, rfl⟩ := stamp_eq_some ht
    exact hsame
  | posted hp =>
    obtain ⟨-, rfl⟩ := postWindowMessage_eq_some hp
    exact hsame
  | removed hm => exact hsame
  | registered hr =>
    rcases registerWindowClass_eq_some hr with rfl | ⟨-, -, -, -, rfl⟩
    · exact hsame
    · exact ⟨List.prefix_append _ _, List.prefix_rfl⟩
  | created hr =>
    rcases createWindowRecord_eq_some hr with rfl | ⟨-, -, rfl⟩
    · exact hsame
    · exact ⟨List.prefix_rfl, List.prefix_append _ _⟩
  | titled _ text => exact hsame
  | idled policy => exact hsame

end UserState

/-- Where a relation tells the members apart, a member is the first with its key. -/
theorem find?_of_pairwise {α : Type} {l : List α} {k : α → ℕ} (h : l.Pairwise fun a b => k a < k b)
    {a : α} (ha : a ∈ l) : l.find? (fun b => k b = k a) = some a := by
  induction l with
  | nil => cases ha
  | cons b l ih =>
    obtain ⟨hb, hl⟩ := List.pairwise_cons.mp h
    rcases List.mem_cons.mp ha with rfl | ha
    · exact List.find?_cons_of_pos (by simp)
    · rw [List.find?_cons_of_neg (by simpa using (hb a ha).ne)]
      exact ih hl ha

/-- **Classes and windows are told apart in every run**: a window is found by its handle, which no
other window has or will have; a name stands for at most one class of each kind; the procedure that
a window has is that of a class with the atom of the window. Both are only added. -/
theorem Session.windows_registered {s : Session} (h : Session.Reached Session.AnyAction s) :
    (∀ w ∈ s.state.windows, s.state.findWindow w.handle = some w) ∧
      (s.state.windowClasses.Pairwise fun c c' =>
        ¬ (eqIgnoreAsciiCase c.className c'.className ∧ c.unicode = c'.unicode)) ∧
      (∀ w ∈ s.state.windows, w.windowProc ≠ 0 → ∃ c,
        s.state.windowClasses.find? (fun c => c.atom = w.classAtom) = some c ∧
          c.windowProc = w.windowProc ∧ c.unicode = w.unicode) ∧
      ∀ s', GuardedPath Session.AnyAction (fun s a s' => s' = s.next a) s s' →
        s.state.windowClasses <+: s'.state.windowClasses ∧
          s.state.windows <+: s'.state.windows := by
  have hreg : s.state.Registered := by
    refine GuardedReach.invariant (I := fun s : Session => s.state.Registered) ?_ ?_ h
    · intro s hs
      constructor <;> simp [hs.windowClasses, hs.windows]
    · rintro s a _ hs - rfl
      exact Session.next_keeps (fun _ _ _ hc hst => hc.registered_of hst)
        (fun _ m hst => hst.congr rfl rfl rfl rfl) s a hs
  refine ⟨fun w hw => find?_of_pairwise hreg.handles hw, hreg.names, ?_, ?_⟩
  · intro w hw hp
    obtain ⟨c, hc, hatom, hproc⟩ := hreg.procs w hw hp
    exact ⟨c, hatom ▸ find?_of_pairwise hreg.atoms hc, hproc⟩
  · intro s' hpath
    refine GuardedPath.invariant (I := fun s' : Session =>
      s.state.windowClasses <+: s'.state.windowClasses ∧ s.state.windows <+: s'.state.windows)
      ?_ hpath ⟨List.prefix_rfl, List.prefix_rfl⟩
    rintro s₁ a _ h₁ - rfl
    refine Session.next_keeps (I := fun st => s.state.windowClasses <+: st.windowClasses ∧
      s.state.windows <+: st.windows) (fun _ _ _ hc hst => ?_) (fun _ _ hst => hst) s₁ a h₁
    exact ⟨hst.1.trans hc.grows.1, hst.2.trans hc.grows.2⟩

/-! ### A window and a message -/

namespace Session

/-- The guest goes on with these registers and leaves memory alone. -/
def resume (s : Session) (regs : Regs) : UserAction := .guest ⟨regs, s.mem⟩

/-- A guest with a window class at `0x1000`, its name at `0x2000` and a request for a window at
`0x3000`. -/
def desk : Session where
  user :=
    { engine :=
        ⟨⟨0, 0, 0, 0, 0, 0, 0⟩, Flat.blank.setAll [(0x1008, 8, 0x7000), (0x1040, 8, 0x2000),
          (0x2000, 1, 0x41), (0x3000, 8, 1)]⟩
      state := ⟨[], 1, .yieldOnIdle, 1, [], 0x10000, [], [], []⟩ }
  pendingCallbacks := []
  callbackReturnTrampolineVa := 0x6000
  record := []

/-- The class is registered. -/
def deskClass : Session :=
  (desk.next (desk.resume ⟨0, 0x1000, 0, 0, 0, 0x9000, 0⟩)).next (.call .registerClassExA)

/-- The window is created. -/
def deskWindow : Session :=
  (deskClass.next (deskClass.resume ⟨0, 0, 0x220, 0, 0x3000, 0x9000, 0⟩)).next (.call .sendMessageA)

/-- A message is posted to it. -/
def deskOpen : Session :=
  let s := deskWindow.next (.postWindowMessage 0x10000 0x400 1 2)
  s.next (s.resume ⟨0, 0x4000, 0, 0, 0, 0x9000, 0⟩)

/-- The message is taken. -/
def deskTaken : Session :=
  let s := deskOpen.next (.call .getMessageA)
  s.next (s.resume ⟨1, 0x4000, 0, 0, 0, 0x9000, 0⟩)

theorem desk_starts : Starts desk := ⟨rfl, rfl, rfl, rfl, rfl, rfl⟩

theorem Reached.any {s : Session} (h : Reached AnyAction s) (a : UserAction) :
    Reached AnyAction (s.next a) := .step h trivial rfl

theorem deskOpen_any : Reached AnyAction deskOpen := by
  rw [deskOpen, deskWindow, deskClass]
  exact (((((Reached.any (.init desk_starts) _).any _).any _).any _).any _).any _

theorem deskTaken_any : Reached AnyAction deskTaken := by
  rw [deskTaken]
  exact (deskOpen_any.any _).any _

theorem messages_conserved_desk :
    itemsTaken deskTaken.state.mail = [(⟨0, 0, 0⟩, ⟨0x10000, 0x400, 1, 2, 1, 0, 0⟩)] ∧
      deskTaken.state.messageQueue.Sublist (itemsPosted deskTaken.state.mail) :=
  ⟨rfl, (messages_conserved deskTaken_any).2.1⟩

theorem windows_registered_desk :
    deskTaken.state.windows.map WindowRecord.windowProc = [0x7000] ∧
      ∀ w ∈ deskTaken.state.windows, deskTaken.state.findWindow w.handle = some w :=
  ⟨rfl, (windows_registered deskTaken_any).1⟩

end Session

end Wie
