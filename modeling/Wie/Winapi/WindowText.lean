import Wie.Winapi.Callbacks

/-!
# The title of the main window

What `SetWindowTextW` was given, `GetWindowTextW` gives back later, whatever calls are made in
between, as long as none of them sets the title. With `SetWindowTextA` and `GetWindowTextA` this is
so for ASCII alone: the one reads the page 1252, the other writes UTF-8.

## Main results

* `Session.title_kept` — nothing else changes the title
* `Session.wide_title_comes_back` — a text that was set comes back
* `Session.ansi_title_comes_back_iff` — which bytes do
-/

namespace Wie

namespace Session

variable {s s' : Session}

/-- The action does not set the title. -/
def KeepsTitle (_ : Session) (a : UserAction) : Prop := ¬ SetsTitle a

/-- A change that does not set the title. -/
theorem title_change {T : Prop} {st st' : UserState} (hc : st.Change T st') (hT : ¬ T) :
    st'.windowTitle = st.windowTitle := by
  cases hc with
  | keep => rfl
  | stamp ht =>
    obtain ⟨-, -, rfl⟩ := UserState.stamp_eq_some ht
    rfl
  | posted hp =>
    obtain ⟨-, rfl⟩ := UserState.postWindowMessage_eq_some hp
    rfl
  | removed hm => rfl
  | registered hr =>
    rcases UserState.registerWindowClass_eq_some hr with rfl | ⟨-, -, -, -, rfl⟩ <;> rfl
  | created hr =>
    rcases UserState.createWindowRecord_eq_some hr with rfl | ⟨-, -, rfl⟩ <;> rfl
  | titled h text => exact absurd h hT
  | idled policy => rfl

theorem title_next {a : UserAction} (h : KeepsTitle s a) :
    (s.next a).state.windowTitle = s.state.windowTitle := by
  cases a with
  | postMessage m => rfl
  | guest e => exact title_change (s.next_change trivial) h
  | call c => exact title_change (s.next_change trivial) h
  | worker regs c => exact title_change (s.next_change trivial) h
  | trampoline => exact title_change (s.next_change trivial) h
  | postWindowMessage w n p l => exact title_change (s.next_change trivial) h
  | setMessageQueueIdlePolicy p => exact title_change (s.next_change trivial) h

/-- **The title stays** until it is set. -/
theorem title_kept (h : GuardedPath KeepsTitle (fun s a s' => s' = s.next a) s s') :
    s'.state.windowTitle = s.state.windowTitle := by
  refine GuardedPath.invariant (I := fun s₁ : Session => s₁.state.windowTitle =
    s.state.windowTitle) ?_ h rfl
  rintro s₁ a _ h₁ hg rfl
  exact (title_next hg).trans h₁

/-! ### Setting and getting -/

/-- A title that is read is set. -/
theorem title_of_set {read : Flat → ℕ → ℕ → Option (List Char)} {u : User} {text : List Char}
    (hwindow : u.engine.regs.rcx = FAKE_WINDOW_HANDLE) (hptr : u.engine.regs.rdx ≠ 0)
    (hread : read u.engine.mem u.engine.regs.rdx 32768 = some text) :
    (handleSetWindowText read u).2.state.windowTitle = text := by
  rw [handleSetWindowText, if_pos ⟨hwindow, hptr⟩, hread, User.andThen, User.state_answer]

/-- A title that is written is in the buffer. -/
theorem mem_of_get {write : Flat → ℕ → ℕ → List Char → Option (ℕ × Flat)} {u : User} {p : ℕ × Flat}
    (hwindow : u.engine.regs.rcx = FAKE_WINDOW_HANDLE)
    (hwrite : write u.engine.mem u.engine.regs.rdx u.engine.regs.r8 u.state.windowTitle = some p) :
    (handleGetWindowText write u).2.engine.mem = p.2 := by
  rw [handleGetWindowText, if_pos hwindow, hwrite, User.andThen, User.mem_answer]

/-- A call that asks for no window procedure ends with what its handler left. -/
theorem mem_next_of_text {c : UserCall} (hc : c = .getWindowTextA ∨ c = .getWindowTextW) :
    (s.next (.call c)).mem = (c.handle s.user).2.engine.mem := by
  have hnot : ∀ write : Flat → ℕ → ℕ → List Char → Option (ℕ × Flat),
      ∀ request, (handleGetWindowText write s.user).1 ≠ .guestCallbackRequested request := by
    intro write request hreq
    have hanswer : ∀ (u : User) (v : ℕ), (u.answer v).1 ≠ .guestCallbackRequested request := by
      intro u v h
      rw [User.answer] at h
      split at h <;> cases h
    rw [handleGetWindowText] at hreq
    split at hreq
    · cases hwrite : write s.user.engine.mem s.user.engine.regs.rdx s.user.engine.regs.r8
          s.user.state.windowTitle with
      | none =>
        rw [hwrite] at hreq
        cases hreq
      | some p =>
        rw [hwrite] at hreq
        exact hanswer _ _ hreq
    · exact hanswer _ _ hreq
  rw [next, endCall]
  split
  · rename_i request hreq
    rcases hc with rfl | rfl
    · exact absurd hreq (hnot _ request)
    · exact absurd hreq (hnot _ request)
  · rfl

/-- The units of a text that was set come back: a zero-terminated text at `p` is set, and later got
into a buffer at `q` that has room for it. -/
theorem wide_title_comes_back {text : List Char} {p q : ℕ}
    (hne : ∀ u ∈ encodeUtf16 text, u ≠ 0) (hlen : (encodeUtf16 text).length < 32768)
    (hset : s.user.engine.regs.rcx = FAKE_WINDOW_HANDLE) (hp : s.user.engine.regs.rdx = p)
    (hp0 : p ≠ 0) (hend : p + (encodeUtf16 text).length * 2 < 2 ^ 64)
    (htext : UnitsAt s.mem p 2 ((encodeUtf16 text).map UInt16.toNat ++ [0]))
    (hpath : GuardedPath KeepsTitle (fun s a s' => s' = s.next a)
      (s.next (.call .setWindowTextW)) s')
    (hget : s'.user.engine.regs.rcx = FAKE_WINDOW_HANDLE) (hq : s'.user.engine.regs.rdx = q)
    (hq0 : q ≠ 0) (hcap : (encodeUtf16 text).length < s'.user.engine.regs.r8)
    (hbuf : s'.mem.Rw q (((encodeUtf16 text).length + 1) * 2)) :
    UnitsAt (s'.next (.call .getWindowTextW)).mem q 2
      ((encodeUtf16 text).map UInt16.toNat ++ [0]) := by
  have hread : readUtf16Lossy s.mem p 32768 = some text := by
    have hunits : readUnits s.mem p 2 0 32768 =
        some (((encodeUtf16 text).map UInt16.toNat).take 32768) :=
      readUnits_of_unitsAt (fun u hu => ?_) htext (by rwa [List.length_map])
    · rw [readUtf16Lossy, if_neg hp0, hunits, List.take_of_length_le (by
        rw [List.length_map]
        omega), Option.map_some, List.map_map]
      have hid : UInt16.ofNat ∘ UInt16.toNat = id := by
        funext u
        exact UInt16.ofNat_toNat
      rw [hid, List.map_id, fromUtf16Lossy_encodeUtf16]
    · obtain ⟨u', hu', rfl⟩ := List.mem_map.mp hu
      exact fun h0 => hne u' hu' (UInt16.toNat_inj.mp h0)
  have htitle : s'.state.windowTitle = text := by
    rw [title_kept hpath, next, state_endCall]
    exact title_of_set hset (hp ▸ hp0) (hp ▸ hread)
  have hbytes : unitBytes ((encodeUtf16 text).take (s'.user.engine.regs.r8 - 1) ++ [0]) =
      bytesOfUnits 2 ((encodeUtf16 text).map UInt16.toNat ++ [0]) := by
    rw [List.take_of_length_le (by omega), unitBytes_eq, List.map_append]
    rfl
  have hroom :
      s'.mem.Rw q (bytesOfUnits 2 ((encodeUtf16 text).map UInt16.toNat ++ [0])).length := by
    rwa [length_bytesOfUnits, List.length_append, List.length_map, List.length_singleton]
  have hwrite : writeUtf16CString s'.mem q s'.user.engine.regs.r8 s'.state.windowTitle =
      some ((encodeUtf16 text).length,
        s'.mem.put q (bytesOfUnits 2 ((encodeUtf16 text).map UInt16.toNat ++ [0]))) := by
    simp only [writeUtf16CString]
    rw [if_neg (by omega), htitle, hbytes, hroom.store, Option.map_some,
      List.take_of_length_le (by omega)]
  subst hq
  rw [mem_next_of_text (.inr rfl), UserCall.handle, handleGetWindowTextW, mem_of_get hget hwrite]
  refine unitsAt_put ?_ ?_
  · intro u hu
    rcases List.mem_append.mp hu with hu | hu
    · obtain ⟨u', -, rfl⟩ := List.mem_map.mp hu
      exact u'.toNat_lt.trans_eq (by norm_num)
    · rw [List.mem_singleton.mp hu]
      norm_num
  · rw [List.length_append, List.length_map, List.length_singleton]
    exact hbuf.rd

/-- A guest with a text at `0x1000` that it sets as title. -/
def caption (text : List UInt8) : Session :=
  { desk with
    user := { desk.user with
      engine := ⟨⟨0, FAKE_WINDOW_HANDLE, 0x1000, 0, 0, 0x9000, 0⟩, Flat.blank.put 0x1000 text⟩ } }

/-- Once the title is set by the call `c`, the guest asks for it. -/
def captionSet (text : List UInt8) (c : UserCall) : Session :=
  let s := (caption text).next (.call c)
  s.next (s.resume ⟨1, FAKE_WINDOW_HANDLE, 0x2000, 8, 0, 0x9000, 0⟩)

theorem captionSet_path (text : List UInt8) (c : UserCall) :
    GuardedPath KeepsTitle (fun s a s' => s' = s.next a) ((caption text).next (.call c))
      (captionSet text c) :=
  .single ⟨resume _ _, not_false, rfl⟩

theorem captionSet_rw (text : List UInt8) (c : UserCall) (q n : ℕ) :
    (captionSet text c).mem.Rw q n := fun x _ _ =>
  congrFun (agreeOff_call (caption text) c).writable x

theorem caption_unitsAt {size : ℕ} {us : List ℕ} (h : ∀ u ∈ us, u < 256 ^ size) :
    UnitsAt (caption (bytesOfUnits size us)).mem 0x1000 size us :=
  unitsAt_put h fun _ _ _ => rfl

theorem wide_title_comes_back_caption :
    UnitsAt ((captionSet (bytesOfUnits 2 ((encodeUtf16 ['A']).map UInt16.toNat ++ [0]))
      .setWindowTextW).next (.call .getWindowTextW)).mem 0x2000 2
      ((encodeUtf16 ['A']).map UInt16.toNat ++ [0]) :=
  wide_title_comes_back (s := caption _) (List.forall_mem_singleton.mpr (by decide)) (by decide)
    rfl rfl (by decide) (by decide) (caption_unitsAt (by decide)) (captionSet_path _ _) rfl rfl
    (by decide) (by decide) (captionSet_rw _ _ _ _)

end Session

/-! ### Bytes of the page 1252 in UTF-8 -/

/-- The bytes that are written for a byte that was read. -/
def rewritten (b : UInt8) : List UInt8 :=
  String.utf8EncodeChar (Char.ofNat (cp1252ByteToU16 b).toNat)

/-- What is read off the table, byte by byte. -/
theorem rewritten_table (b : UInt8) :
    (b ≠ 0 → 0 ∉ rewritten b) ∧ (b < 0x80 → rewritten b = [b]) ∧
      (¬ b < 0x80 → 2 ≤ (rewritten b).length) := by
  revert b
  refine forall_byte ?_
  decide +kernel

theorem zero_notMem_rewritten {b : UInt8} (hb : b ≠ 0) : 0 ∉ rewritten b :=
  (rewritten_table b).1 hb

theorem rewritten_of_lt {b : UInt8} (hb : b < 0x80) : rewritten b = [b] :=
  (rewritten_table b).2.1 hb

/-- Outside of ASCII there is more to write than was read. -/
theorem two_le_length_rewritten {b : UInt8} (hb : ¬ b < 0x80) : 2 ≤ (rewritten b).length :=
  (rewritten_table b).2.2 hb

theorem asBytes_decodeAcp (bytes : List UInt8) :
    asBytes (decodeAcp bytes) = bytes.flatMap rewritten := by
  rw [decodeAcp, textOf, asBytes, List.flatMap_map]
  rfl

theorem zero_notMem_asBytes {bytes : List UInt8} (h : ∀ b ∈ bytes, b ≠ 0) :
    ∀ b ∈ asBytes (decodeAcp bytes), b ≠ 0 := by
  intro b hb h0
  rw [asBytes_decodeAcp] at hb
  obtain ⟨a, ha, hmem⟩ := List.mem_flatMap.mp hb
  exact zero_notMem_rewritten (h a ha) (h0 ▸ hmem)

theorem length_le_asBytes (bytes : List UInt8) :
    bytes.length ≤ (asBytes (decodeAcp bytes)).length := by
  rw [asBytes_decodeAcp]
  induction bytes with
  | nil => exact le_rfl
  | cons b bytes ih =>
    rw [List.flatMap_cons, List.length_append, List.length_cons]
    by_cases hb : b < 0x80
    · rw [rewritten_of_lt hb, List.length_singleton]
      omega
    · have := two_le_length_rewritten hb
      omega

/-- **Only ASCII is written as it was read.** -/
theorem asBytes_decodeAcp_eq_iff (bytes : List UInt8) :
    asBytes (decodeAcp bytes) = bytes ↔ ∀ b ∈ bytes, b < 0x80 := by
  constructor
  · intro h b hb
    by_contra hlarge
    -- one byte more for the byte outside of ASCII, and no fewer for the others
    obtain ⟨l, r, rfl⟩ := List.append_of_mem hb
    have hl := length_le_asBytes l
    have hr := length_le_asBytes r
    have hlen := congrArg List.length h
    rw [asBytes_decodeAcp] at hl hr hlen
    have := two_le_length_rewritten hlarge
    simp only [List.flatMap_append, List.flatMap_cons, List.length_append, List.length_cons] at hlen
    omega
  · intro h
    rw [asBytes_decodeAcp]
    induction bytes with
    | nil => rfl
    | cons b bytes ih =>
      rw [List.flatMap_cons, rewritten_of_lt (h b (.head _)), ih fun b' hb' => h b' (.tail _ hb')]
      rfl

/-- Two texts of bytes, each ended by a zero, at the same place. -/
theorem eq_of_unitsAt {m : Flat} {q : ℕ} {xs ys : List UInt8} (hx : ∀ b ∈ xs, b ≠ 0)
    (hy : ∀ b ∈ ys, b ≠ 0) (hxs : UnitsAt m q 1 (xs.map UInt8.toNat ++ [0]))
    (hys : UnitsAt m q 1 (ys.map UInt8.toNat ++ [0])) (hxend : q + xs.length < 2 ^ 64)
    (hyend : q + ys.length < 2 ^ 64) : xs = ys := by
  have hunits : ∀ zs : List UInt8, (∀ b ∈ zs, b ≠ 0) → ∀ u ∈ zs.map UInt8.toNat, u ≠ 0 := by
    intro zs hz u hu
    obtain ⟨b, hb, rfl⟩ := List.mem_map.mp hu
    exact fun h0 => hz b hb (UInt8.toNat_inj.mp h0)
  have hreadx : readUnits m q 1 0 (xs.length + ys.length) = _ :=
    readUnits_of_unitsAt (hunits xs hx) hxs (by rwa [List.length_map, Nat.mul_one])
  have hready : readUnits m q 1 0 (xs.length + ys.length) = _ :=
    readUnits_of_unitsAt (hunits ys hy) hys (by rwa [List.length_map, Nat.mul_one])
  rw [hreadx, Option.some.injEq, List.take_of_length_le (by simp),
    List.take_of_length_le (by simp)] at hready
  exact List.map_injective_iff.mpr (fun _ _ h => UInt8.toNat_inj.mp h) hready

namespace Session

variable {s s' : Session}

/-- **Which bytes come back**: a zero-terminated text at `p` is set, and later got into a buffer at
`q` that has room for it. -/
theorem ansi_title_comes_back_iff {bytes : List UInt8} {p q : ℕ} (hne : ∀ b ∈ bytes, b ≠ 0)
    (hlen : bytes.length < 32768)
    (hset : s.user.engine.regs.rcx = FAKE_WINDOW_HANDLE) (hp : s.user.engine.regs.rdx = p)
    (hp0 : p ≠ 0) (hend : p + bytes.length < 2 ^ 64)
    (htext : UnitsAt s.mem p 1 (bytes.map UInt8.toNat ++ [0]))
    (hpath : GuardedPath KeepsTitle (fun s a s' => s' = s.next a)
      (s.next (.call .setWindowTextA)) s')
    (hget : s'.user.engine.regs.rcx = FAKE_WINDOW_HANDLE) (hq : s'.user.engine.regs.rdx = q)
    (hq0 : q ≠ 0) (hcap : (asBytes (decodeAcp bytes)).length < s'.user.engine.regs.r8)
    (hqend : q + (asBytes (decodeAcp bytes)).length < 2 ^ 64)
    (hbuf : s'.mem.Rw q ((asBytes (decodeAcp bytes)).length + 1)) :
    UnitsAt (s'.next (.call .getWindowTextA)).mem q 1 (bytes.map UInt8.toNat ++ [0]) ↔
      ∀ b ∈ bytes, b < 0x80 := by
  have hread : readAnsiLossy s.mem p 32768 = some (decodeAcp bytes) := by
    have hunits : readUnits s.mem p 1 0 32768 = some ((bytes.map UInt8.toNat).take 32768) :=
      readUnits_of_unitsAt (fun u hu => ?_) htext (by rwa [List.length_map, Nat.mul_one])
    · rw [readAnsiLossy, if_neg hp0, hunits, List.take_of_length_le (by
        rw [List.length_map]
        omega), Option.map_some, List.map_map]
      have hid : UInt8.ofNat ∘ UInt8.toNat = id := by
        funext u
        exact UInt8.ofNat_toNat
      rw [hid, List.map_id]
    · obtain ⟨u', hu', rfl⟩ := List.mem_map.mp hu
      exact fun h0 => hne u' hu' (UInt8.toNat_inj.mp h0)
  have htitle : s'.state.windowTitle = decodeAcp bytes := by
    rw [title_kept hpath, next, state_endCall]
    exact title_of_set hset (hp ▸ hp0) (hp ▸ hread)
  have hroom : s'.mem.Rw q (asBytes (decodeAcp bytes) ++ [0]).length := by
    rwa [List.length_append, List.length_singleton]
  have hwrite : writeAnsiCString s'.mem q s'.user.engine.regs.r8 s'.state.windowTitle =
      some ((asBytes (decodeAcp bytes)).length,
        s'.mem.put q (asBytes (decodeAcp bytes) ++ [0])) := by
    simp only [writeAnsiCString]
    rw [if_neg (by omega), htitle, List.take_of_length_le (by omega), hroom.store, Option.map_some]
  subst hq
  rw [mem_next_of_text (.inl rfl), UserCall.handle, handleGetWindowTextA, mem_of_get hget hwrite]
  have hunits : ∀ zs : List UInt8, bytesOfUnits 1 (zs.map UInt8.toNat ++ [0]) = zs ++ [0] := by
    intro zs
    have h := bytesOfUnits_one (zs ++ [0])
    rwa [List.map_append] at h
  have hwritten : UnitsAt (s'.mem.put s'.user.engine.regs.rdx (asBytes (decodeAcp bytes) ++ [0]))
      s'.user.engine.regs.rdx 1 ((asBytes (decodeAcp bytes)).map UInt8.toNat ++ [0]) := by
    rw [← hunits]
    refine unitsAt_put ?_ ?_
    · intro u hu
      rcases List.mem_append.mp hu with hu | hu
      · obtain ⟨b, -, rfl⟩ := List.mem_map.mp hu
        exact b.toNat_lt.trans_eq (by norm_num)
      · rw [List.mem_singleton.mp hu]
        norm_num
    · rw [List.length_append, List.length_map, List.length_singleton, Nat.mul_one]
      exact hbuf.rd
  constructor
  · intro hback
    have hle := length_le_asBytes bytes
    exact (asBytes_decodeAcp_eq_iff bytes).mp (eq_of_unitsAt (zero_notMem_asBytes hne) hne hwritten
      hback hqend (by omega))
  · intro hascii
    rwa [(asBytes_decodeAcp_eq_iff bytes).mpr hascii] at hwritten ⊢

theorem ansi_title_comes_back_iff_caption :
    UnitsAt ((captionSet (bytesOfUnits 1 ([(0xe9 : UInt8)].map UInt8.toNat ++ [0]))
      .setWindowTextA).next (.call .getWindowTextA)).mem 0x2000 1
      ([(0xe9 : UInt8)].map UInt8.toNat ++ [0]) ↔ ∀ b ∈ [(0xe9 : UInt8)], b < 0x80 :=
  ansi_title_comes_back_iff (s := caption _) (List.forall_mem_singleton.mpr (by decide))
    (by decide) rfl rfl (by decide) (by decide) (caption_unitsAt (by decide)) (captionSet_path _ _)
    rfl rfl (by decide) (by decide) (by decide) (captionSet_rw _ _ _ _)

end Session

end Wie
