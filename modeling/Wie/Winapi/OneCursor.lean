import Wie.Winapi.SlotPlace

/-!
# One cursor for a file

A file with a slot has its cursor, its size and its content twice, on the host and in the guest.
Routines of the guest move the one cursor and handlers of the host the other, and only some of them
copy it over. The guest sees one file with one cursor as long as each call starts from a copy that
is current.

## Main definitions

* `Mover`, `Follows` — the side that moved the cursor last has the cursor of the plain file
* `ServedEvent`, `runServed` — calls, each answered by one of the sides
* `CallInOrder`, `AllInOrder` — the calls that start from copies that are current

## Main results

* `served_as_plain` — runs in order give the answers of the plain file
* `not_served_as_plain` — a write after a seek of the guest
-/

namespace Wie

open Flat

variable {cfg : GuestIoConfig} {R : Set ℕ} {room handle i va : ℕ} {m m' : Flat}
  {s s' : FileState} {f f' : OpenGuestFile} {regs : Regs}

/-! ### Who has the cursor -/

/-- The side that moved the cursor last. -/
inductive Mover
  /-- A handler of the host. -/
  | host
  /-- A routine of the guest. -/
  | guest
deriving DecidableEq

/-- The cursor of the side that moved it last. -/
def CursorAt (cfg : GuestIoConfig) (m : Flat) (f : OpenGuestFile) (c : ℕ) : Mover → Prop
  | .host => f.cursor = c
  | .guest => ∃ i, f.guestSlotIndex = some i ∧ slotField m cfg.tableVa i 24 = c

/-- An open file stands for a plain file: it is in its place, has the content, and the side that
moved the cursor last has the cursor. -/
structure Follows (cfg : GuestIoConfig) (R : Set ℕ) (room handle : ℕ) (path : Option String)
    (mover : Mover) (m : Flat) (s : FileState) (p : PlainFile) : Prop where
  /-- It is in its place. -/
  placed : Placed cfg R room handle m s
  /-- It has content and cursor. -/
  file : ∃ f, Stores s handle f path p.content ∧ f.cursor < 2 ^ 64 ∧
    CursorAt cfg m f p.cursor mover
  /-- No file is larger. -/
  size : p.content.length < 2 ^ 63
  /-- The cursor is a number of 63 bits. -/
  bound : p.cursor < 2 ^ 63

/-- The cursor that a read of the host starts from. -/
def readCursor (m : Flat) (s : FileState) (f : OpenGuestFile) : ℕ :=
  ((f.slotVa s.guestIo).bind fun slotVa => m.loadLe (wrappingAdd slotVa 24) 8).getD f.cursor

variable {path : Option String} {mover : Mover} {p q : PlainFile}

theorem Slotted.loadCursor (h : Slotted cfg R m handle room f i va)
    (hp : Placed cfg R room handle m s) :
    m.loadLe (wrappingAdd (slotAddr cfg.tableVa i) 24) 8 = some (slotField m cfg.tableVa i 24) := by
  rw [hp.at.wrap h.lt (by decide)]
  exact (hp.at.slotRw h.lt (by decide)).loadLe

theorem Slotted.readCursor_eq (h : Slotted cfg R m handle room f i va)
    (hp : Placed cfg R room handle m s) : readCursor m s f = slotField m cfg.tableVa i 24 := by
  rw [readCursor, h.slotVa_eq hp, Option.bind_some, h.loadCursor hp, Option.getD_some]

theorem Slotted.slotInStep_iff (h : Slotted cfg R m handle room f i va)
    (hp : Placed cfg R room handle m s) :
    SlotInStep m s f ↔ slotField m cfg.tableVa i 24 = f.cursor := by
  refine ⟨fun hs => hs _ _ (h.slotVa_eq hp) (h.loadCursor hp), fun he slotVa c hva hl => ?_⟩
  obtain rfl := Option.some.inj ((h.slotVa_eq hp).symm.trans hva)
  exact (Option.some.inj ((h.loadCursor hp).symm.trans hl)).symm.trans he

/-- A read of the host starts from the cursor, when both copies are equal or the guest moved it. -/
theorem Placed.readCursor_eq (h : Placed cfg R room handle m s)
    (hf : s.openFiles.lookup handle = some f) {c : ℕ} (hc : CursorAt cfg m f c mover)
    (hs : mover = .host → SlotInStep m s f) : readCursor m s f = c := by
  rcases h.file f hf with hun | ⟨i, va, hsl, -⟩
  · cases mover with
    | host =>
      rw [readCursor, OpenGuestFile.slotVa, hun.index]
      exact hc
    | guest =>
      obtain ⟨i, hi, -⟩ := hc
      cases hun.index.symm.trans hi
  · rw [hsl.readCursor_eq h]
    cases mover with
    | host => exact ((hsl.slotInStep_iff h).mp (hs rfl)).trans hc
    | guest =>
      obtain ⟨j, hj, hcur⟩ := hc
      obtain rfl := Option.some.inj (hsl.index.symm.trans hj)
      exact hcur

/-- The host has the cursor, when both copies are equal or the host moved it. -/
theorem Placed.cursor_eq (h : Placed cfg R room handle m s)
    (hf : s.openFiles.lookup handle = some f) {c : ℕ} (hc : CursorAt cfg m f c mover)
    (hs : mover = .guest → SlotInStep m s f) : f.cursor = c := by
  cases mover with
  | host => exact hc
  | guest =>
    obtain ⟨j, hj, hcur⟩ := hc
    rcases h.file f hf with hun | ⟨i, va, hsl, -⟩
    · cases hun.index.symm.trans hj
    · obtain rfl := Option.some.inj (hsl.index.symm.trans hj)
      exact ((hsl.slotInStep_iff h).mp (hs rfl)).symm.trans hcur

theorem Placed.confined (h : Placed cfg R room handle m s)
    (hf : s.openFiles.lookup handle = some f) : Confined R m s.guestIo f := by
  have ht : TableIn R m s.guestIo := by
    rw [h.io]
    exact h.table
  rcases h.file f hf with hun | ⟨i, va, hsl, hle⟩
  · refine ⟨ht, fun i hi => ?_, fun va hva => ?_⟩
    · cases hun.index.symm.trans hi
    · cases hun.dataVa.symm.trans hva
  · refine ⟨ht, fun j hj => ?_, fun va' hva x h1 h2 => ?_⟩
    · obtain rfl := Option.some.inj (hsl.index.symm.trans hj)
      exact hsl.lt
    · obtain rfl := Option.some.inj (hsl.dataVa.symm.trans hva)
      exact hsl.inRegion x h1 (by omega)

/-- Nothing moved; memory changed off the region. -/
theorem Follows.still (h : Follows cfg R room handle path mover m s p) (hm : AgreeOff Rᶜ m' m)
    (n : ℕ) (hc : q.content = p.content) (hq : q.cursor = p.cursor) :
    Follows cfg R room handle path mover m' { s with lastError := n } q := by
  obtain ⟨f, hst, hb, hcur⟩ := h.file
  refine ⟨h.placed.frame hm rfl rfl, ⟨f, ?_, hb, ?_⟩, by rw [hc]; exact h.size,
    by rw [hq]; exact h.bound⟩
  · rw [hc]
    exact ⟨hst.lookup, hst.hostPath, hst.streaming, hst.buffered⟩
  · rw [hq]
    cases mover with
    | host => exact hcur
    | guest =>
      obtain ⟨i, hi, hslot⟩ := hcur
      have hlt := (h.placed.confined hst.lookup).index i hi
      exact ⟨i, hi, (hm.slotField_eq h.placed.table hlt (by decide)).trans hslot⟩

/-- How a call compares with the call on the plain file. -/
structure Answers (cfg : GuestIoConfig) (R : Set ℕ) (room handle : ℕ) (path : Option String)
    (mover : Mover) (h : Handled) (q : PlainHandled) : Prop where
  /-- The same end, and the same value. -/
  result : h.1 = q.1
  /-- After a call that returns: the same memory off the region, content and cursor. -/
  tracks : q.1 ≠ .error → AgreeOff R h.2.1.mem q.2.1.mem ∧
    Follows cfg R room handle path mover h.2.1.mem h.2.2 q.2.2

theorem Answers.error {e e' : CpuEngine} :
    Answers cfg R room handle path mover (.error, e, s) (.error, e', p) :=
  ⟨rfl, fun h => (h rfl).elim⟩

theorem Answers.returned (hret : OffRegion R regs.rsp 8) (hm : AgreeOff R m m')
    (ht : Follows cfg R room handle path mover m s p) (value : ℕ) :
    Answers cfg R room handle path mover (returnWith ⟨regs, m⟩ s value)
      (p.returnWith ⟨regs, m'⟩ value) := by
  have hload : m.loadLe regs.rsp 8 = m'.loadLe regs.rsp 8 := hm.loadLe hret
  rw [returnWith, PlainFile.returnWith]
  simp only [CpuEngine.returnFromWin64Api, hload]
  cases m'.loadLe regs.rsp 8 with
  | none => exact .error
  | some ret => exact ⟨rfl, fun _ => ⟨hm, ht⟩⟩

/-- A call of the host that matches leaves the cursor with the host. -/
theorem Answers.of_matches {h : Handled} {q₀ q : PlainHandled} (hm : Matches R handle path h q₀)
    (hsame : PlainFile.SameAnswer q₀ q) (hl : Leaves (Placed cfg R room handle) h)
    (hb : q.2.2.cursor < 2 ^ 63) : Answers cfg R room handle path .host h q := by
  refine ⟨hm.result.trans hsame.result, fun hne => ?_⟩
  rw [← hsame.result] at hne
  obtain ⟨f, hr⟩ := hm.represents hne
  refine ⟨?_, hl (by rw [hm.result]; exact hne), ⟨f, ?_, ?_, ?_⟩, ?_, hb⟩
  · rw [← hsame.engine]
    exact hm.mem
  · rw [← hsame.content]
    exact hr.toStores
  · rw [hr.cursor]
    exact hr.bound
  · show f.cursor = q.2.2.cursor
    rw [hr.cursor, hsame.cursor]
  · rw [← hsame.content]
    exact hr.size

/-! ### Calls answered by the host -/

/-- The position that `SetFilePointer` reaches. -/
def seekTo (size cursor : ℕ) (regs : Regs) : Option ℕ :=
  if regs.r9 ≠ FILE_BEGIN ∧ regs.r9 ≠ FILE_CURRENT ∧ regs.r9 ≠ FILE_END then none
  else (seekTarget size cursor regs.rdx regs.r9).join

theorem seekTarget_congr {method : ℕ} (h : method ≠ FILE_CURRENT) (size c c' low : ℕ) :
    seekTarget size c low method = seekTarget size c' low method := by
  rw [seekTarget, seekTarget, if_neg h, if_neg h]

/-- Reads of the host that agree with the plain file. -/
structure HostReads (mover : Mover) (m : Flat) (s : FileState) (f : OpenGuestFile) (regs : Regs) :
    Prop where
  /-- A buffer can have the size asked for. -/
  requested : regs.r8 < 2 ^ 63
  /-- The count is a number of 32 bits. -/
  transferred : min regs.r8 ((f.content s.host).length - readCursor m s f) < 2 ^ 32
  /-- A buffer is not read past the end. -/
  inside : f.streaming = false → readCursor m s f ≤ f.bytes.length
  /-- The cursor in the slot was not left behind. -/
  cursor : mover = .host → SlotInStep m s f

/-- Writes that agree with the plain file. -/
structure HostWrites (room : ℕ) (mover : Mover) (m : Flat) (s : FileState) (f : OpenGuestFile)
    (regs : Regs) : Prop where
  /-- No file gets larger. -/
  fits : f.cursor + regs.r8 < 2 ^ 63
  /-- Nothing is not written past the end of a buffer. -/
  inside : f.streaming = false → regs.r8 = 0 → f.cursor ≤ f.bytes.length
  /-- The mirror has room. -/
  room : InRoom room f (f.cursor + regs.r8)
  /-- The cursor of the host was not left behind. -/
  cursor : mover = .guest → SlotInStep m s f

/-- The calls of the host that start from copies that are current. -/
def HostInOrder (room : ℕ) (mover : Mover) (m : Flat) (s : FileState) (f : OpenGuestFile)
    (regs : Regs) : FileApi → Prop
  | .readFile => regs.rdx ≠ 0 → HostReads mover m s f regs
  | .writeFile => regs.rdx ≠ 0 → HostWrites room mover m s f regs
  | .setFilePointer => regs.r9 = FILE_CURRENT → mover = .guest → SlotInStep m s f
  | .getFileSize => True

/-- The side that moved the cursor last, after a call of the host. -/
def hostMover (mover : Mover) (s : FileState) (f : OpenGuestFile) (regs : Regs) : FileApi → Mover
  | .readFile => if regs.rdx = 0 then mover else .host
  | .writeFile => if regs.rdx = 0 then mover else .host
  | .setFilePointer => if (seekTo (f.size s.host) f.cursor regs).isSome then .host else mover
  | .getFileSize => mover

/-- **`GetFileSize`** of the host. -/
theorem Follows.handleGetFileSize (h : Follows cfg R room regs.rcx path mover m s p)
    (hm : AgreeOff R m m') (hret : OffRegion R regs.rsp 8) (hoff : HostOff R regs .getFileSize) :
    Answers cfg R room regs.rcx path mover (handleGetFileSize ⟨regs, m⟩ s)
      (p.getFileSize ⟨regs, m'⟩) := by
  obtain ⟨f, hst, -, -⟩ := h.file
  rw [Wie.handleGetFileSize, hst.lookup]
  dsimp only
  rw [f.size_eq, hst.content_eq, PlainFile.getFileSize]
  rcases writeGuestU32_agree hm regs.rdx (p.content.length / 2 ^ 32) with
    ⟨h1, h2⟩ | ⟨m₁, m₂, h1, h2, hm₁⟩
  · rw [h1, h2]
    exact .error
  · rw [h1, h2]
    refine .returned hret hm₁ ?_ _
    exact h.still (writeGuestU32_off h1 hoff) 0 rfl rfl

/-- **`SetFilePointer`** of the host. -/
theorem Follows.handleSetFilePointer (h : Follows cfg R room regs.rcx path mover m s p)
    (hf : s.openFiles.lookup regs.rcx = some f) (hm : AgreeOff R m m')
    (hret : OffRegion R regs.rsp 8) (hoff : HostOff R regs .setFilePointer)
    (hg : HostInOrder room mover m s f regs .setFilePointer) :
    Answers cfg R room regs.rcx path (hostMover mover s f regs .setFilePointer)
      (handleSetFilePointer ⟨regs, m⟩ s) (p.setFilePointer ⟨regs, m'⟩) := by
  obtain ⟨g, hst, hb, hcur⟩ := h.file
  obtain rfl := Option.some.inj (hst.lookup.symm.trans hf)
  have hsize : g.size s.host = p.content.length := by rw [g.size_eq, hst.content_eq]
  have hseek : seekTarget (g.size s.host) g.cursor regs.rdx regs.r9 =
      seekTarget p.content.length p.cursor regs.rdx regs.r9 := by
    rw [hsize]
    by_cases hc : regs.r9 = FILE_CURRENT
    · rw [h.placed.cursor_eq hf hcur (hg hc)]
    · exact seekTarget_congr hc ..
  rw [hostMover, seekTo, Wie.handleSetFilePointer, hf]
  dsimp only
  rw [PlainFile.setFilePointer, hseek]
  split
  · refine .returned hret hm ?_ _
    exact h.still (.refl _ _) _ rfl rfl
  cases ht : seekTarget p.content.length p.cursor regs.rdx regs.r9 with
  | none => exact .error
  | some target =>
    cases target with
    | none =>
      refine .returned hret hm ?_ _
      exact h.still (.refl _ _) _ rfl rfl
    | some c =>
      have hlt := seekTarget_lt ht
      dsimp only
      rw [if_pos (show (some (some c)).join.isSome = true from rfl)]
      rcases writeGuestU32_agree hm regs.r8 (c / 2 ^ 32) with ⟨h1, h2⟩ | ⟨m₁, m₂, h1, h2, hm₁⟩
      · rw [h1, h2]
        exact .error
      · rw [h1, h2]
        have h₁ : Placed cfg R room regs.rcx m₁
            { s.setFile regs.rcx (g.withCursor c) with lastError := 0 } :=
          (h.placed.setCursor hf c).frame (writeGuestU32_off h1 hoff) rfl rfl
        have hst₁ := hst.setCursor c
        refine .returned hret (((h₁.confined hst₁.lookup).syncSlot hst₁.lookup).trans hm₁) ?_ _
        exact ⟨h₁.sync, ⟨g.withCursor c, ⟨hst₁.lookup, hst₁.hostPath, hst₁.streaming,
          hst₁.buffered⟩, hlt.trans (by decide), rfl⟩, h.size, hlt⟩

/-- The plain file with the cursor and the last error of the host. -/
theorem Follows.represents (h : Follows cfg R room handle path mover m s p)
    (hst : Stores s handle f path p.content) (hc : f.cursor = p.cursor) :
    Represents s handle f path { p with lastError := s.lastError } :=
  ⟨hst, hc, rfl, h.size, h.bound.trans (by decide)⟩

/-- **`WriteFile`** of the host. -/
theorem Follows.handleWriteFile (h : Follows cfg R room regs.rcx path mover m s p)
    (hf : s.openFiles.lookup regs.rcx = some f) (hm : AgreeOff R m m')
    (hret : OffRegion R regs.rsp 8) (hoff : HostOff R regs .writeFile)
    (hg : HostInOrder room mover m s f regs .writeFile) :
    Answers cfg R room regs.rcx path (hostMover mover s f regs .writeFile)
      (handleWriteFile ⟨regs, m⟩ s) (p.writeFile ⟨regs, m'⟩) := by
  obtain ⟨g, hst, hb, hcur⟩ := h.file
  obtain rfl := Option.some.inj (hst.lookup.symm.trans hf)
  rw [hostMover]
  by_cases hnull : regs.rdx = 0
  · rw [if_pos hnull, Wie.handleWriteFile, PlainFile.writeFile]
    dsimp only
    rcases writeGuestU32_agree hm regs.r9 0 with ⟨h1, h2⟩ | ⟨m₁, m₂, h1, h2, hm₁⟩
    · rw [h1, h2]
      exact .error
    · rw [h1, h2]
      dsimp only
      rw [if_pos hnull, if_pos hnull]
      refine .returned hret hm₁ ?_ _
      exact h.still (writeGuestU32_off h1 hoff.1) _ rfl rfl
  · rw [if_neg hnull]
    have hw := hg hnull
    have hc := h.placed.cursor_eq hf hcur hw.cursor
    refine .of_matches (handleWriteFile_matches hm rfl hret (h.represents hst hc)
      (h.placed.confined hf) ⟨hoff.2, hw.fits, hw.inside⟩)
      (PlainFile.call_lastError .writeFile ⟨regs, m'⟩ p s.lastError)
      (h.placed.handleWriteFile hoff fun f' hf' _ => ?_) ?_
    · obtain rfl := Option.some.inj (hf.symm.trans hf')
      exact hw.room
    · refine @PlainFile.call_cursor_lt ⟨regs, m'⟩ p .writeFile h.size h.bound fun _ _ => ?_
      rw [← hc]
      exact hw.fits

/-- The cursor of the host does not count when the host takes the one of the slot. -/
theorem Slotted.syncHostCursor_setCursor (h : Slotted cfg R m handle room f i va)
    (hp : Placed cfg R room handle m s) (hf : s.openFiles.lookup handle = some f) (c : ℕ) :
    syncHostCursorFromGuest m (s.setFile handle (f.withCursor c)) handle =
      syncHostCursorFromGuest m s handle := by
  rw [hp.at.syncHostCursor_eq hp.io hf h.index h.lt, hp.at.syncHostCursor_eq (hp.setCursor hf c).io
    (AList.lookup_insert _) (show (f.withCursor c).guestSlotIndex = some i from h.index) h.lt]
  simp only [FileState.setFile, AList.insert_insert]
  rfl

/-- A read of the host does not depend on its cursor, when the file has a slot. -/
theorem Slotted.handleReadFile_setCursor (h : Slotted cfg R m regs.rcx room f i va)
    (hp : Placed cfg R room regs.rcx m s) (hf : s.openFiles.lookup regs.rcx = some f)
    (hoff : HostOff R regs .readFile) (hnull : regs.rdx ≠ 0) (c : ℕ) :
    Wie.handleReadFile ⟨regs, m⟩ (s.setFile regs.rcx (f.withCursor c)) =
        Wie.handleReadFile ⟨regs, m⟩ s ∨
      (Wie.handleReadFile ⟨regs, m⟩ (s.setFile regs.rcx (f.withCursor c))).1 = .error ∧
        (Wie.handleReadFile ⟨regs, m⟩ s).1 = .error := by
  rw [Wie.handleReadFile, Wie.handleReadFile]
  dsimp only
  cases hw : writeGuestU32 m regs.r9 0 with
  | none => exact .inr ⟨rfl, rfl⟩
  | some m₁ =>
    have hoff₁ := writeGuestU32_off hw hoff.1
    have hp₁ : Placed cfg R room regs.rcx m₁ s := hp.frame hoff₁ rfl rfl
    have h₁ : Slotted cfg R m₁ regs.rcx room f i va :=
      h.congr (fun j hj k hk => hoff₁.slotField_eq hp.table hj (by omega)) hoff₁.writable rfl rfl
        rfl
    dsimp only
    rw [if_neg hnull, if_neg hnull, h₁.syncHostCursor_setCursor hp₁ hf]
    exact .inl rfl

/-- **`ReadFile`** of the host. -/
theorem Follows.handleReadFile (h : Follows cfg R room regs.rcx path mover m s p)
    (hf : s.openFiles.lookup regs.rcx = some f) (hm : AgreeOff R m m')
    (hret : OffRegion R regs.rsp 8) (hoff : HostOff R regs .readFile)
    (hg : HostInOrder room mover m s f regs .readFile) :
    Answers cfg R room regs.rcx path (hostMover mover s f regs .readFile)
      (handleReadFile ⟨regs, m⟩ s) (p.readFile ⟨regs, m'⟩) := by
  obtain ⟨g, hst, hb, hcur⟩ := h.file
  obtain rfl := Option.some.inj (hst.lookup.symm.trans hf)
  rw [hostMover]
  by_cases hnull : regs.rdx = 0
  · rw [if_pos hnull, Wie.handleReadFile, PlainFile.readFile]
    dsimp only
    rcases writeGuestU32_agree hm regs.r9 0 with ⟨h1, h2⟩ | ⟨m₁, m₂, h1, h2, hm₁⟩
    · rw [h1, h2]
      exact .error
    · rw [h1, h2]
      dsimp only
      rw [if_pos hnull, if_pos hnull]
      refine .returned hret hm₁ ?_ _
      exact h.still (writeGuestU32_off h1 hoff.1) _ rfl rfl
  rw [if_neg hnull]
  have hr := hg hnull
  have hread := h.placed.readCursor_eq hf hcur hr.cursor
  have hbound : (p.readFile ⟨regs, m'⟩).2.2.cursor < 2 ^ 63 :=
    @PlainFile.call_cursor_lt ⟨regs, m'⟩ p .readFile h.size h.bound (fun h => by cases h)
  have hplaced := h.placed.handleReadFile hoff
  have hsame := PlainFile.call_lastError .readFile ⟨regs, m'⟩ p s.lastError
  have htransferred := hr.transferred
  have hinside := hr.inside
  rw [hread] at htransferred hinside
  rcases h.placed.file g hf with hun | ⟨i, va, hsl, hle⟩
  · have hno : g.slotVa s.guestIo = none := by
      rw [OpenGuestFile.slotVa, hun.index]
      rfl
    have hc : g.cursor = p.cursor := by
      rw [readCursor, hno] at hread
      exact hread
    refine .of_matches (handleReadFile_matches hm rfl hret (h.represents hst hc)
      (h.placed.confined hf) ⟨hoff.1, hr.requested, ?_, ?_, ?_⟩) hsame hplaced hbound
    · rwa [hc]
    · rwa [hc]
    · intro slotVa c hva
      cases hno.symm.trans hva
  · have hp' := h.placed.setCursor hf p.cursor
    have hst' := hst.setCursor p.cursor
    have hsl' : Slotted cfg R m regs.rcx room (g.withCursor p.cursor) i va :=
      hsl.congr (fun _ _ _ _ => rfl) rfl rfl rfl rfl
    have hmatch := handleReadFile_matches hm rfl hret
      (show Represents (s.setFile regs.rcx (g.withCursor p.cursor)) regs.rcx (g.withCursor p.cursor)
        path { p with lastError := s.lastError } from
          ⟨hst', rfl, rfl, h.size, h.bound.trans (by decide)⟩)
      (hp'.confined hst'.lookup) ⟨hoff.1, hr.requested, htransferred, hinside,
        (hsl'.slotInStep_iff hp').mpr ((hsl.readCursor_eq h.placed).symm.trans hread)⟩
    rcases hsl.handleReadFile_setCursor h.placed hf hoff hnull p.cursor with he | ⟨h1, h2⟩
    · rw [he] at hmatch
      exact .of_matches hmatch hsame hplaced hbound
    · have hres := hmatch.result.trans hsame.result
      rw [h1] at hres
      exact ⟨h2.trans hres, fun hne => (hne hres.symm).elim⟩

/-! ### Calls answered in the guest -/

/-- The size in the slot is the one of the host. -/
def SizeInStep (m : Flat) (s : FileState) (f : OpenGuestFile) : Prop :=
  ∀ slotVa, f.slotVa s.guestIo = some slotVa →
    m.loadLe (wrappingAdd slotVa 16) 8 = some f.bytes.length

/-- The mirror has the content of the buffer. -/
def MirrorInStep (m : Flat) (f : OpenGuestFile) : Prop :=
  ∀ va, f.guestDataVa = some va → m.load va f.bytes.length = some f.bytes

/-- Reads of the guest that agree with the plain file. -/
structure GuestReads (R : Set ℕ) (mover : Mover) (m : Flat) (s : FileState) (f : OpenGuestFile)
    (regs : Regs) : Prop where
  /-- Count and target lie off the region. -/
  off : HostOff R regs .readFile
  /-- The size asked for is a number of 32 bits. -/
  requested : regs.r8 < 2 ^ 32
  /-- There is a target. -/
  target : regs.rdx ≠ 0
  /-- It lies in the address space. -/
  top : regs.rdx + regs.r8 < 2 ^ 64
  /-- The cursor in the slot was not left behind. -/
  cursor : mover = .host → SlotInStep m s f
  /-- Nor was the size. -/
  size : SizeInStep m s f
  /-- Nor was the content. -/
  mirror : MirrorInStep m f

/-- Seeks of the guest that agree with the plain file. -/
structure GuestSeeks (R : Set ℕ) (mover : Mover) (m : Flat) (s : FileState) (f : OpenGuestFile)
    (regs : Regs) : Prop where
  /-- The upper half of the position is stored off the region. -/
  off : HostOff R regs .setFilePointer
  /-- The method is a number of 32 bits. -/
  method : regs.r9 < 2 ^ 32
  /-- The cursor in the slot was not left behind; nor was the one of the host, if it is asked. -/
  cursor : regs.r9 = FILE_CURRENT →
    mover = .host ∨ seekTo f.bytes.length (readCursor m s f) regs = none → SlotInStep m s f
  /-- The size in the slot was not left behind. -/
  size : regs.r9 = FILE_END → SizeInStep m s f

/-- The calls of the guest that start from copies that are current. -/
def GuestInOrder (R : Set ℕ) (mover : Mover) (m : Flat) (s : FileState) (f : OpenGuestFile)
    (regs : Regs) : FileApi → Prop
  | .readFile => GuestReads R mover m s f regs
  | .writeFile => False
  | .setFilePointer => GuestSeeks R mover m s f regs
  | .getFileSize => HostOff R regs .getFileSize ∧ SizeInStep m s f

/-- The side that moved the cursor last, after a call of the guest. -/
def guestMover (mover : Mover) (m : Flat) (s : FileState) (f : OpenGuestFile) (regs : Regs) :
    FileApi → Mover
  | .readFile => .guest
  | .writeFile => mover
  | .setFilePointer =>
    if (seekTo f.bytes.length (readCursor m s f) regs).isSome then .guest else mover
  | .getFileSize => mover

theorem Slotted.scanTable_eq (h : Slotted cfg R m handle room f i va)
    (hp : Placed cfg R room handle m s) :
    scanTable m cfg.tableVa handle (List.range GUEST_IO_MAX_SLOTS) =
      .ok (some (slotAddr cfg.tableVa i)) :=
  hp.at.scanTable_eq_some h.lt h.owner h.valid _ (List.mem_range.mpr h.lt) fun j hj =>
    ⟨List.mem_range.mp hj, h.only j (List.mem_range.mp hj)⟩

theorem Slotted.loadSize (h : Slotted cfg R m handle room f i va)
    (hp : Placed cfg R room handle m s) (hs : SizeInStep m s f) :
    m.loadLe (wrappingAdd (slotAddr cfg.tableVa i) 16) 8 = some f.bytes.length :=
  hs _ (h.slotVa_eq hp)

/-- **`GetFileSize`** of the guest. -/
theorem Follows.guestGetFileSize (h : Follows cfg R room regs.rcx path mover m s p)
    (hf : s.openFiles.lookup regs.rcx = some f) (hsl : Slotted cfg R m regs.rcx room f i va)
    (hm : AgreeOff R m m') (hret : OffRegion R regs.rsp 8)
    (hg : GuestInOrder R mover m s f regs .getFileSize) :
    Answers cfg R room regs.rcx path mover
      (servedCall cfg.tableVa .guestGetFileSize ⟨regs, m⟩ s) (p.getFileSize ⟨regs, m'⟩) := by
  obtain ⟨g, hst, -, -⟩ := h.file
  obtain rfl := Option.some.inj (hst.lookup.symm.trans hf)
  show Answers _ _ _ _ _ _ (afterRoutine _ _ _ (Wie.guestGetFileSize _ _)) _
  rw [Wie.guestGetFileSize, hsl.scanTable_eq h.placed]
  dsimp only
  rw [hsl.loadSize h.placed hg.2, PlainFile.getFileSize, hst.buffered hsl.buffered]
  dsimp only
  rcases writeGuestU32_agree hm regs.rdx (p.content.length / 2 ^ 32) with
    ⟨h1, h2⟩ | ⟨m₁, m₂, h1, h2, hm₁⟩
  · rw [h1, h2]
    exact .error
  · rw [h1, h2]
    refine .returned hret hm₁ ?_ _
    exact h.still (writeGuestU32_off h1 hg.1) s.lastError rfl rfl

/-- The cursor in the slot was moved, and memory changed off the region. -/
theorem Follows.moved (h : Follows cfg R room handle path mover m s p)
    (hf : s.openFiles.lookup handle = some f) (hsl : Slotted cfg R m handle room f i va) {c : ℕ}
    (hc : c < 2 ^ 63) (hm : AgreeOff Rᶜ m' (m.set (slotAddr cfg.tableVa i + 24) 8 c))
    (hq : q.content = p.content) (hcur : q.cursor = c) :
    Follows cfg R room handle path .guest m' s q := by
  obtain ⟨g, hst, hb, -⟩ := h.file
  obtain rfl := Option.some.inj (hst.lookup.symm.trans hf)
  have hset : Placed cfg R room handle (m.set (slotAddr cfg.tableVa i + 24) 8 c) s := by
    refine h.placed.congr (fun j hj k hk => get_set_of_disjoint ?_) rfl rfl fun f' hf' =>
      ⟨f', hf', rfl, rfl, rfl, fun _ => id⟩
    by_cases hji : j = i
    · subst hji
      omega
    · have := slotAddr_apart cfg.tableVa hji
      omega
  refine ⟨hset.frame hm rfl rfl, ⟨g, by rw [hq]; exact hst, hb, i, hsl.index, ?_⟩,
    by rw [hq]; exact h.size, by rw [hcur]; exact hc⟩
  rw [hm.slotField_eq hset.table hsl.lt (by decide), hcur]
  exact get_set_of_lt (hc.trans (by decide))

/-- **`SetFilePointer`** of the guest. -/
theorem Follows.guestSetFilePointer (h : Follows cfg R room regs.rcx path mover m s p)
    (hf : s.openFiles.lookup regs.rcx = some f) (hsl : Slotted cfg R m regs.rcx room f i va)
    (hm : AgreeOff R m m') (hret : OffRegion R regs.rsp 8)
    (hg : GuestInOrder R mover m s f regs .setFilePointer) :
    Answers cfg R room regs.rcx path (guestMover mover m s f regs .setFilePointer)
      (servedCall cfg.tableVa .guestSetFilePointer ⟨regs, m⟩ s) (p.setFilePointer ⟨regs, m'⟩) := by
  obtain ⟨g, hst, hb, hcur⟩ := h.file
  obtain rfl := Option.some.inj (hst.lookup.symm.trans hf)
  have hbytes := hst.buffered hsl.buffered
  have hsize : g.size s.host = g.bytes.length := by
    rw [OpenGuestFile.size, hsl.buffered, if_neg Bool.false_ne_true]
  -- on the way to the host, the host has the cursor if it needs it
  have hfallback : seekTo g.bytes.length (readCursor m s g) regs = none →
      Answers cfg R room regs.rcx path (guestMover mover m s g regs .setFilePointer)
        (Wie.handleSetFilePointer ⟨regs, m⟩ s) (p.setFilePointer ⟨regs, m'⟩) := fun hnone => by
    have hhost : seekTo (g.size s.host) g.cursor regs = none := by
      rw [hsize, ← hnone, seekTo, seekTo]
      by_cases hc : regs.r9 = FILE_CURRENT
      · rw [hsl.readCursor_eq h.placed,
          (hsl.slotInStep_iff h.placed).mp (hg.cursor hc (.inr hnone))]
      · rw [seekTarget_congr hc _ g.cursor (readCursor m s g)]
    have hmover : guestMover mover m s g regs .setFilePointer =
        hostMover mover s g regs .setFilePointer := by
      rw [guestMover, hostMover, hnone, hhost]
      rfl
    rw [hmover]
    exact h.handleSetFilePointer hf hm hret hg.off fun hc _ => hg.cursor hc (.inr hnone)
  show Answers _ _ _ _ _ _ (afterRoutine _ _ _ (Wie.guestSetFilePointer _ _)) _
  rw [Wie.guestSetFilePointer, hsl.scanTable_eq h.placed]
  dsimp only
  rw [Nat.mod_eq_of_lt hg.method]
  split
  · rename_i hbad
    exact hfallback (if_pos hbad)
  rename_i hmethod
  have hcurrent : regs.r9 = FILE_CURRENT → readCursor m s g = p.cursor := fun hc =>
    h.placed.readCursor_eq hf hcur fun hh => hg.cursor hc (.inl hh)
  have hbase : (if regs.r9 = FILE_BEGIN then some 0
      else if regs.r9 = FILE_CURRENT then m.loadLe (wrappingAdd (slotAddr cfg.tableVa i) 24) 8
      else m.loadLe (wrappingAdd (slotAddr cfg.tableVa i) 16) 8) =
        some (seekBase g.bytes.length (readCursor m s g) regs.r9) := by
    rw [seekBase]
    split
    · rfl
    split
    · rw [hsl.loadCursor h.placed, hsl.readCursor_eq h.placed]
    · rename_i h0 h1
      have hend : regs.r9 = FILE_END := by
        by_contra h2
        exact hmethod ⟨h0, h1, h2⟩
      exact hsl.loadSize h.placed (hg.size hend)
  have hlt : seekBase g.bytes.length (readCursor m s g) regs.r9 < 2 ^ 63 := by
    rw [seekBase]
    split
    · decide
    split
    · rename_i hc
      rw [hcurrent hc]
      exact h.bound
    · rw [hbytes]
      exact h.size
  rw [hbase]
  dsimp only
  split
  · rename_i hge
    refine hfallback ?_
    rw [seekTo, if_neg hmethod]
    exact seekTarget_of_le hlt hge
  rename_i hge
  have htarget := seekTarget_of_lt hlt (not_le.mp hge)
  generalize addDistance (seekBase g.bytes.length (readCursor m s g) regs.r9) regs.rdx = c
    at hge htarget
  have hplain : seekTarget p.content.length p.cursor regs.rdx regs.r9 = some (some c) := by
    rw [← htarget, hbytes]
    by_cases hc : regs.r9 = FILE_CURRENT
    · rw [hcurrent hc]
    · exact seekTarget_congr hc ..
  have hmover : guestMover mover m s g regs .setFilePointer = .guest := by
    rw [guestMover, seekTo, if_neg hmethod, htarget]
    rfl
  rw [hmover, PlainFile.setFilePointer, if_neg hmethod, hplain, h.placed.at.wrap hsl.lt (by decide),
    (h.placed.at.slotRw hsl.lt (by decide)).storeLe]
  dsimp only
  have hset : AgreeOff R (m.set (slotAddr cfg.tableVa i + 24) 8 c) m' := by
    refine (AgreeOff.set_left _ fun x h1 h2 => ?_).trans hm
    have hb := slotAddr_bounds cfg.tableVa hsl.lt
    exact (h.placed.table.table cfg rfl).2 x (by omega) (by omega)
  rcases writeGuestU32_agree hset regs.r8 (c / 2 ^ 32) with ⟨h1, h2⟩ | ⟨m₁, m₂, h1, h2, hm₁⟩
  · rw [h1, h2]
    exact .error
  · rw [h1, h2]
    refine .returned hret hm₁ ?_ _
    exact h.moved hf hsl (not_le.mp hge) (writeGuestU32_off h1 hg.off) rfl rfl

/-- Reading from the bytes of a range. -/
theorem readAt_bytes (m : Flat) (a n off k : ℕ) :
    readAt (m.bytes a n) off k = m.bytes (a + off) (min k (n - off)) := by
  refine List.ext_getElem (by simp) fun j h1 h2 => ?_
  simp [readAt, bytes, Nat.add_assoc]

/-- A pointer that is null, or may be written through. -/
def CountOk (m : Flat) (ptr : ℕ) : Prop := ptr = 0 ∨ m.Rw ptr 4

theorem CountOk.congr {ptr : ℕ} (h : CountOk m ptr) (hw : m'.writable = m.writable) :
    CountOk m' ptr :=
  h.imp_right fun hrw => hrw.congr hw

theorem writeGuestU32_eq_none {ptr : ℕ} (h : ¬ CountOk m ptr) (v : ℕ) :
    writeGuestU32 m ptr v = none := by
  rw [CountOk, not_or] at h
  rw [writeGuestU32, if_neg h.1]
  cases hs : m.storeLe ptr 4 v with
  | none => rfl
  | some m₁ => exact absurd (storeLe_eq_some hs).2 h.2

theorem exists_writeGuestU32 {ptr : ℕ} (h : CountOk m ptr) (v : ℕ) :
    ∃ m₁, writeGuestU32 m ptr v = some m₁ := by
  rw [writeGuestU32]
  split
  · exact ⟨m, rfl⟩
  · rename_i hne
    exact ⟨_, (h.resolve_left hne).storeLe v⟩

/-- A count that is stored twice, with the target in between. -/
theorem writeGuestU32_twice {ptr v v' a : ℕ} {bs : List UInt8} {m₁ m₂ m₃ m₄ : Flat}
    (hm : AgreeOff R m₂ (m.put a bs)) (h1 : writeGuestU32 m ptr v = some m₁)
    (h2 : writeGuestU32 m₂ ptr v' = some m₃) (h3 : writeGuestU32 (m₁.put a bs) ptr v' = some m₄) :
    AgreeOff R m₃ m₄ := by
  rw [writeGuestU32] at h1 h2 h3
  split at h1
  · rename_i hnull
    rw [if_pos hnull] at h2 h3
    obtain rfl := Option.some.inj h1
    obtain rfl := Option.some.inj h2
    obtain rfl := Option.some.inj h3
    exact hm
  · rename_i hnull
    rw [if_neg hnull] at h2 h3
    obtain ⟨rfl, -⟩ := storeLe_eq_some h1
    obtain ⟨rfl, -⟩ := storeLe_eq_some h2
    obtain ⟨rfl, -⟩ := storeLe_eq_some h3
    have hcount : AgreeOff {x | ptr ≤ x ∧ x < ptr + 4} (m.put a bs) ((m.set ptr 4 v).put a bs) :=
      ((AgreeOff.set_left (R := {x | ptr ≤ x ∧ x < ptr + 4}) v
        fun x h1 h2 => ⟨h1, h2⟩).put a bs).symm
    refine (hm.put ptr (toLe 4 v')).trans (hcount.put_over (toLe 4 v') (fun x hx => ?_) R)
    rwa [length_toLe]

/-- A file whose slot has the cursor. -/
theorem Follows.guest (h : Follows cfg R room handle path mover m s p)
    (hf : s.openFiles.lookup handle = some f) (hsl : Slotted cfg R m handle room f i va)
    (hread : readCursor m s f = p.cursor) : Follows cfg R room handle path .guest m s p := by
  obtain ⟨g, hst, hb, -⟩ := h.file
  obtain rfl := Option.some.inj (hst.lookup.symm.trans hf)
  exact ⟨h.placed, ⟨g, hst, hb, i, hsl.index, (hsl.readCursor_eq h.placed).symm.trans hread⟩,
    h.size, h.bound⟩

/-- What the mirror has, after the cursor. -/
theorem Slotted.bytes_mirror (hsl : Slotted cfg R m handle room f i va)
    (hmirror : MirrorInStep m f) (c k : ℕ) :
    m.bytes (va + c) (min k (f.bytes.length - c)) = readAt f.bytes c k := by
  have hload := hmirror va hsl.dataVa
  rw [load] at hload
  split at hload
  · have hb : m.bytes va f.bytes.length = f.bytes := Option.some.inj hload
    rw [← readAt_bytes, hb]
  · cases hload

/-- The memory after the routine has copied bytes to their target. -/
def afterCopy (cfg : GuestIoConfig) (m : Flat) (i target cursor : ℕ) (data : List UInt8) : Flat :=
  if data = [] then m
  else (m.put target data).set (slotAddr cfg.tableVa i + 24) 8 (cursor + data.length)

theorem Slotted.afterCopy_agree (hsl : Slotted cfg R m handle room f i va)
    (hp : Placed cfg R room handle m s) (hm : AgreeOff R m m') (target c : ℕ) (data : List UInt8) :
    AgreeOff R (afterCopy cfg m i target c data) (m'.put target data) := by
  rw [afterCopy]
  split
  · rename_i hnil
    rwa [hnil, put_nil]
  · refine (AgreeOff.set_left _ fun x h1 h2 => ?_).trans (hm.put target data)
    have hb := slotAddr_bounds cfg.tableVa hsl.lt
    exact (hp.table.table cfg rfl).2 x (by omega) (by omega)

/-- **What the routine does**: it copies what the plain file transfers, and moves the cursor. -/
theorem Slotted.readFromSlot_eq (hsl : Slotted cfg R m regs.rcx room f i va)
    (hp : Placed cfg R room regs.rcx m s) (hle : f.bytes.length ≤ room)
    (hlen : f.bytes.length < 2 ^ 63) {c : ℕ} (hc : slotField m cfg.tableVa i 24 = c)
    (hg : GuestReads R mover m s f regs) :
    let data := readAt f.bytes c regs.r8
    match m.store regs.rdx data with
    | none => (readFromSlot ⟨regs, m⟩ (slotAddr cfg.tableVa i) va c f.bytes.length).1 = .fault
    | some _ => readFromSlot ⟨regs, m⟩ (slotAddr cfg.tableVa i) va c f.bytes.length =
        finishRead regs.r9 data.length (afterCopy cfg m i regs.rdx c data) := by
  intro data
  have hn : (if f.bytes.length < c then 0 else min (regs.r8 % 2 ^ 32) (f.bytes.length - c)) =
      data.length := by
    rw [Nat.mod_eq_of_lt hg.requested, length_readAt]
    split <;> omega
  rw [readFromSlot]
  dsimp only
  rw [hn]
  have hlength : data.length = min regs.r8 (f.bytes.length - c) := length_readAt ..
  have hsource : m.bytes (va + c) data.length = data := by
    rw [hlength]
    exact hsl.bytes_mirror hg.mirror c regs.r8
  clear_value data
  by_cases hzero : data.length = 0
  · obtain rfl := List.length_eq_zero_iff.mp hzero
    rw [if_pos hzero, afterCopy, if_pos (show ([] : List UInt8) = [] from rfl),
      Rw.store [] fun x h1 h2 => by
        rw [List.length_nil] at h2
        omega]
  rw [if_neg hzero, afterCopy, if_neg (fun he => hzero (by rw [he]; rfl))]
  have htop := hsl.top
  have hwrap : wrappingAdd va c = va + c := Nat.mod_eq_of_lt (by omega)
  have hapart : va + c + data.length ≤ regs.rdx ∨ regs.rdx + data.length ≤ va + c := by
    by_contra hn
    have hin := hsl.inRegion (max (va + c) regs.rdx) (by omega) (by omega)
    exact hg.off.2 (max (va + c) regs.rdx) (by omega) (by omega) hin
  have hcopy := copyBytes_spec (m := m) (by omega : va + c + data.length < 2 ^ 64)
    (by have := hg.top; omega : regs.rdx + data.length < 2 ^ 64)
    (fun x h1 h2 => m.readable_of_writable x (hsl.rw x (by omega) (by omega))) hapart
  rw [hsource] at hcopy
  rw [hwrap]
  cases hst : m.store regs.rdx data with
  | none =>
    rw [hst] at hcopy
    dsimp only at hcopy ⊢
    generalize copyBytes data.length (va + c) regs.rdx m = r at hcopy
    obtain ⟨ok, m₁⟩ := r
    obtain rfl : ok = false := hcopy
    rfl
  | some m₁ =>
    rw [hst] at hcopy
    dsimp only at hcopy ⊢
    rw [hcopy]
    dsimp only
    have hoff := store_off hst hg.off.2 (by omega)
    obtain ⟨rfl, -⟩ := store_eq_some hst
    have hat : TableAt (m.put regs.rdx data) cfg.tableVa := hp.at.congr rfl
    have hcur : slotField (m.put regs.rdx data) cfg.tableVa i 24 = c :=
      (hoff.slotField_eq hp.table hsl.lt (by decide)).trans hc
    have hnext : wrappingAdd c data.length = c + data.length := Nat.mod_eq_of_lt (by omega)
    rw [hat.wrap hsl.lt (by decide), (hat.slotRw hsl.lt (by decide)).loadLe]
    dsimp only
    rw [show (m.put regs.rdx data).get (slotAddr cfg.tableVa i + 24) 8 = c from hcur, hnext,
      (hat.slotRw hsl.lt (by decide)).storeLe]

/-- **`ReadFile`** of the guest. -/
theorem Follows.guestReadFile (h : Follows cfg R room regs.rcx path mover m s p)
    (hf : s.openFiles.lookup regs.rcx = some f) (hsl : Slotted cfg R m regs.rcx room f i va)
    (hle : f.bytes.length ≤ room) (hm : AgreeOff R m m') (hret : OffRegion R regs.rsp 8)
    (hsmall : regs.r8 % 2 ^ 32 < LARGE_READ_HOST_THRESHOLD)
    (hg : GuestInOrder R mover m s f regs .readFile) :
    Answers cfg R room regs.rcx path .guest
      (servedCall cfg.tableVa .guestReadFile ⟨regs, m⟩ s) (p.readFile ⟨regs, m'⟩) := by
  obtain ⟨g, hst, hb, hcur⟩ := h.file
  obtain rfl := Option.some.inj (hst.lookup.symm.trans hf)
  have hbytes := hst.buffered hsl.buffered
  have hread := h.placed.readCursor_eq hf hcur hg.cursor
  have hslot : slotField m cfg.tableVa i 24 = p.cursor :=
    (hsl.readCursor_eq h.placed).symm.trans hread
  have hloadVa : m.loadLe (wrappingAdd (slotAddr cfg.tableVa i) 8) 8 = some va := by
    rw [h.placed.at.wrap hsl.lt (by decide), (h.placed.at.slotRw hsl.lt (by decide)).loadLe]
    exact congrArg some hsl.mirror
  have hguest := h.guest hf hsl hread
  have heq := hsl.readFromSlot_eq h.placed hle (by rw [hbytes]; exact h.size) hslot hg
  show Answers _ _ _ _ _ _ (afterRoutine _ _ _ (Wie.guestReadFile _ _)) _
  rw [Wie.guestReadFile, hsl.scanTable_eq h.placed]
  dsimp only
  rw [if_neg (not_le.mpr hsmall), hloadVa, hsl.loadCursor h.placed,
    hsl.loadSize h.placed hg.size, hslot]
  dsimp only at heq ⊢
  rw [PlainFile.readFile]
  dsimp only
  rw [hbytes] at heq ⊢
  generalize readFromSlot ⟨regs, m⟩ (slotAddr cfg.tableVa i) va p.cursor p.content.length = o at heq
  obtain ⟨o, m₁⟩ := o
  have hw : m'.writable = m.writable := hm.writable.symm
  cases hst : m.store regs.rdx (readAt p.content p.cursor regs.r8) with
  | none =>
    rw [hst] at heq
    obtain rfl : o = .fault := heq
    cases h1 : writeGuestU32 m' regs.r9 0 with
    | none => exact .error
    | some m₂ =>
      dsimp only
      rw [if_neg hg.target, PlainFile.transfer]
      dsimp only
      cases hst₂ : m₂.store regs.rdx (readAt p.content p.cursor regs.r8) with
      | none => exact .error
      | some m₃ =>
        refine absurd ((store_eq_some hst₂).2.congr ?_) (store_eq_none hst)
        rw [writable_of_writeGuestU32 h1, hw]
  | some m₂ =>
    rw [hst] at heq
    dsimp only at heq
    obtain ⟨rfl, hrw⟩ := store_eq_some hst
    have hafter : (afterCopy cfg m i regs.rdx p.cursor
        (readAt p.content p.cursor regs.r8)).writable = m.writable := by
      rw [afterCopy]
      split <;> rfl
    rw [finishRead] at heq
    by_cases hok : CountOk m regs.r9
    · obtain ⟨m₃, h3⟩ := exists_writeGuestU32 (hok.congr hafter)
        (readAt p.content p.cursor regs.r8).length
      obtain ⟨m₄, h4⟩ := exists_writeGuestU32 (hok.congr hw) 0
      have hw₄ : m₄.writable = m.writable := (writable_of_writeGuestU32 h4).trans hw
      obtain ⟨m₅, h5⟩ := @exists_writeGuestU32
        (m₄.put regs.rdx (readAt p.content p.cursor regs.r8)) regs.r9 (hok.congr hw₄)
        (readAt p.content p.cursor regs.r8).length
      rw [h3] at heq
      cases heq
      rw [h4]
      dsimp only
      rw [if_neg hg.target, PlainFile.transfer]
      dsimp only
      rw [(hrw.congr hw₄).store]
      dsimp only
      rw [h5]
      have hlen : (readAt p.content p.cursor regs.r8).length ≤ regs.r8 :=
        (length_readAt ..).trans_le (Nat.min_le_left _ _)
      have hoff := store_off hst hg.off.2 hlen
      have hoff₃ := writeGuestU32_off h3 hg.off.1
      refine .returned hret (writeGuestU32_twice ?_ h4 h3 h5) ?_ 1
      · exact hsl.afterCopy_agree h.placed hm _ _ _
      · have hbound : p.cursor + (readAt p.content p.cursor regs.r8).length < 2 ^ 63 := by
          have := h.bound
          have := h.size
          rw [length_readAt]
          omega
        rw [afterCopy] at hoff₃
        split at hoff₃
        · rename_i hnil
          refine hguest.still hoff₃ s.lastError rfl ?_
          rw [hnil]
          rfl
        · exact h.moved hf hsl hbound (hoff₃.trans (hoff.put _ _)) rfl rfl
    · rw [writeGuestU32_eq_none (fun hc => hok (hc.congr hafter.symm))] at heq
      rw [writeGuestU32_eq_none (fun hc => hok (hc.congr hw.symm))]
      cases heq
      exact .error

/-! ### Runs -/

/-- Whether the guest answers a call. -/
def guestAnswers (f : OpenGuestFile) (regs : Regs) : ServedApi → Bool
  | .host _ => false
  | .guestReadFile =>
    f.guestSlotIndex.isSome && decide (regs.r8 % 2 ^ 32 < LARGE_READ_HOST_THRESHOLD)
  | .guestSetFilePointer => f.guestSlotIndex.isSome
  | .guestGetFileSize => f.guestSlotIndex.isSome

/-- The calls that start from copies that are current. -/
def CallInOrder (R : Set ℕ) (room : ℕ) (mover : Mover) (m : Flat) (s : FileState)
    (f : OpenGuestFile) (call : ServedApi) (regs : Regs) : Prop :=
  if guestAnswers f regs call then GuestInOrder R mover m s f regs call.api
  else HostOff R regs call.api ∧ HostInOrder room mover m s f regs call.api

/-- The side that moved the cursor last, after a call. -/
def moverAfter (mover : Mover) (m : Flat) (s : FileState) (f : OpenGuestFile) (call : ServedApi)
    (regs : Regs) : Mover :=
  if guestAnswers f regs call then guestMover mover m s f regs call.api
  else hostMover mover s f regs call.api

theorem Placed.scanTable_unslotted (h : Placed cfg R room handle m s)
    (hf : s.openFiles.lookup handle = some f) (hno : f.guestSlotIndex.isSome = false) :
    scanTable m cfg.tableVa handle (List.range GUEST_IO_MAX_SLOTS) = .ok none := by
  rcases h.file f hf with hun | ⟨i, va, hsl, -⟩
  · exact h.at.scanTable_eq_none _ fun j hj =>
      ⟨List.mem_range.mp hj, hun.free j (List.mem_range.mp hj)⟩
  · rw [hsl.index] at hno
    cases hno

/-- A call that the guest does not answer is handed over to the host. -/
theorem Placed.handedOver (h : Placed cfg R room regs.rcx m s)
    (hf : s.openFiles.lookup regs.rcx = some f) {call : ServedApi}
    (hans : guestAnswers f regs call = false) :
    servedCall cfg.tableVa call ⟨regs, m⟩ s = fileCall call.api ⟨regs, m⟩ s := by
  cases call with
  | host api => rfl
  | guestReadFile =>
    show afterRoutine _ _ _ (guestReadFile _ _) = _
    rw [guestReadFile]
    dsimp only
    split
    · rfl
    · rename_i hlarge
      rw [guestAnswers, decide_eq_true (not_le.mp hlarge), Bool.and_true] at hans
      rw [h.scanTable_unslotted hf hans]
      rfl
  | guestSetFilePointer =>
    show afterRoutine _ _ _ (guestSetFilePointer _ _) = _
    rw [guestSetFilePointer, h.scanTable_unslotted hf hans]
    rfl
  | guestGetFileSize =>
    show afterRoutine _ _ _ (guestGetFileSize _ _) = _
    rw [guestGetFileSize, h.scanTable_unslotted hf hans]
    rfl

/-- **A call in order** answers as the plain file does. -/
theorem Follows.servedCall (h : Follows cfg R room regs.rcx path mover m s p)
    (hf : s.openFiles.lookup regs.rcx = some f) (hm : AgreeOff R m m')
    (hret : OffRegion R regs.rsp 8) (call : ServedApi)
    (hg : CallInOrder R room mover m s f call regs) :
    Answers cfg R room regs.rcx path (moverAfter mover m s f call regs)
      (servedCall cfg.tableVa call ⟨regs, m⟩ s) (p.call call.api ⟨regs, m'⟩) := by
  -- the calls of the host, and those that the guest hands over
  have hhost : ∀ api, HostOff R regs api → HostInOrder room mover m s f regs api →
      Answers cfg R room regs.rcx path (hostMover mover s f regs api) (fileCall api ⟨regs, m⟩ s)
        (p.call api ⟨regs, m'⟩) := fun api hoff hin => by
    cases api with
    | readFile => exact h.handleReadFile hf hm hret hoff hin
    | writeFile => exact h.handleWriteFile hf hm hret hoff hin
    | setFilePointer => exact h.handleSetFilePointer hf hm hret hoff hin
    | getFileSize => exact h.handleGetFileSize hm hret hoff
  rw [CallInOrder] at hg
  rw [moverAfter]
  cases hans : guestAnswers f regs call with
  | true =>
    rw [hans, if_pos rfl] at hg
    rw [if_pos rfl]
    have hslot : f.guestSlotIndex.isSome = true := by
      cases call with
      | host api => cases hans
      | guestReadFile => exact (Bool.and_eq_true_iff.mp hans).1
      | guestSetFilePointer => exact hans
      | guestGetFileSize => exact hans
    rcases h.placed.file f hf with hun | ⟨i, va, hsl, hle⟩
    · rw [hun.index] at hslot
      cases hslot
    cases call with
    | host api => cases hans
    | guestReadFile =>
      exact h.guestReadFile hf hsl hle hm hret
        (of_decide_eq_true (Bool.and_eq_true_iff.mp hans).2) hg
    | guestSetFilePointer => exact h.guestSetFilePointer hf hsl hm hret hg
    | guestGetFileSize => exact h.guestGetFileSize hf hsl hm hret hg
  | false =>
    rw [hans, if_neg Bool.false_ne_true] at hg
    rw [if_neg Bool.false_ne_true]
    rw [h.placed.handedOver hf hans]
    exact hhost call.api hg.1 hg.2

/-- What happens to a file. -/
inductive ServedEvent
  /-- A call, with its registers. -/
  | call (api : ServedApi) (regs : Regs)
  /-- The guest stores bytes. -/
  | guest (a : ℕ) (bs : List UInt8)
deriving DecidableEq

/-- What the plain file sees of it. -/
def ServedEvent.plain : ServedEvent → FileEvent
  | .call api regs => .call api.api regs
  | .guest a bs => .guest a bs

/-- A run of an open file, up to the first error: how its calls end, and what is left. -/
def runServed (tableVa : ℕ) :
    List ServedEvent → Flat → FileState → List ApiResult × Flat × FileState
  | [], m, s => ([], m, s)
  | .guest a bs :: es, m, s => runServed tableVa es ((m.store a bs).getD m) s
  | .call api regs :: es, m, s =>
    let r := servedCall tableVa api ⟨regs, m⟩ s
    if r.1 = .error then ([r.1], r.2.1.mem, r.2.2)
    else
      let t := runServed tableVa es r.2.1.mem r.2.2
      (r.1 :: t.1, t.2)

/-- Every event of a run is in order, in the state it happens in. -/
def AllInOrder (tableVa : ℕ) (R : Set ℕ) (room handle : ℕ) :
    List ServedEvent → Mover → Flat → FileState → Prop
  | [], _, _, _ => True
  | .guest a bs :: es, mover, m, s => OffRegion R a bs.length ∧
    AllInOrder tableVa R room handle es mover ((m.store a bs).getD m) s
  | .call api regs :: es, mover, m, s => regs.rcx = handle ∧ OffRegion R regs.rsp 8 ∧
    ∀ f, s.openFiles.lookup handle = some f → CallInOrder R room mover m s f api regs ∧
      let r := servedCall tableVa api ⟨regs, m⟩ s
      r.1 ≠ .error →
        AllInOrder tableVa R room handle es (moverAfter mover m s f api regs) r.2.1.mem r.2.2

/-- **One file, one cursor**: in a run in order every call ends as the call on the plain file does,
with the same value and the same bytes in memory, and the side that moved the cursor last has the
cursor of the plain file. -/
theorem served_as_plain : ∀ (es : List ServedEvent) {mover : Mover} {m m' : Flat} {s : FileState}
    {p : PlainFile}, AgreeOff R m m' → Follows cfg R room handle path mover m s p →
    AllInOrder cfg.tableVa R room handle es mover m s →
    let r := runServed cfg.tableVa es m s
    let q := p.run (es.map ServedEvent.plain) m'
    r.1 = q.1 ∧ (.error ∉ r.1 → AgreeOff R r.2.1 q.2.1 ∧
      ∃ mover', Follows cfg R room handle path mover' r.2.1 r.2.2 q.2.2) := by
  intro es
  induction es with
  | nil => exact fun hm ht _ => ⟨rfl, fun _ => ⟨hm, _, ht⟩⟩
  | cons ev es ih =>
    intro mover m m' s p hm ht hg
    cases ev with
    | guest a bs =>
      obtain ⟨hoff, hrest⟩ := hg
      refine @ih _ _ _ _ p (store_getD_agree hm a bs) ?_ hrest
      cases hst : m.store a bs with
      | none => exact ht
      | some m₁ => exact ht.still (store_off hst hoff le_rfl) s.lastError rfl rfl
    | call api regs =>
      obtain ⟨rfl, hret, hf⟩ := hg
      obtain ⟨f, hst, -, -⟩ := ht.file
      obtain ⟨hin, hrest⟩ := hf f hst.lookup
      have hans := ht.servedCall hst.lookup hm hret api hin
      rw [List.map_cons, ServedEvent.plain, runServed, PlainFile.run]
      dsimp only at hrest ⊢
      rw [hans.result] at hrest ⊢
      split
      · rename_i herr
        refine ⟨rfl, fun hno => (hno ?_).elim⟩
        rw [herr]
        exact .head _
      · rename_i hne
        obtain ⟨hm₁, ht₁⟩ := hans.tracks hne
        obtain ⟨h1, h2⟩ := ih hm₁ ht₁ (hrest hne)
        exact ⟨congrArg _ h1, fun hno => h2 fun hmem => hno (.tail _ hmem)⟩

/-! ### A file with a slot -/

/-- A table and a place for mirrors. -/
def slotConfig : GuestIoConfig := ⟨0x10000, 0x20000, 0x1000⟩

/-- The table, and a mirror of sixteen bytes. -/
def slotRegion : Set ℕ :=
  {x | 0x10000 ≤ x ∧ x < 0x11400 ∨ 0x20000 ≤ x ∧ x < 0x20010}

/-- A file of three bytes in the first slot. -/
def slotFile : OpenGuestFile := ⟨"a", [1, 2, 3], 0, none, false, some 0x20000, some 0⟩

/-- It is the only file. -/
def slotState : FileState where
  openFiles := AList.insert 0x67000001 slotFile ∅
  nextFileHandle := 0x67000002
  guestIo := some slotConfig
  guestFileDataNext := 0x20010
  virtualFiles := []
  lastError := 0
  host := fun _ => none

/-- What the guest has of it. -/
def slotMem : Flat :=
  setAll [(0x10000, 8, 0x67000001), (0x10008, 8, 0x20000), (0x10010, 8, 3), (0x10018, 8, 0),
    (0x10020, 8, GUEST_IO_FLAG_VALID)] (blank.put 0x20000 [1, 2, 3])

theorem slotFile_slotted :
    Slotted slotConfig slotRegion slotMem 0x67000001 16 slotFile 0 0x20000 where
  index := rfl
  dataVa := rfl
  lt := by decide
  owner := by decide +kernel
  mirror := by decide +kernel
  valid := by decide +kernel
  only := by decide +kernel
  buffered := rfl
  top := by decide
  rw := fun _ _ _ => rfl
  inRegion x h1 h2 := .inr ⟨h1, h2⟩
  apart := .inr (by decide)

theorem slotState_tracks : Follows slotConfig slotRegion 16 0x67000001 none .host slotMem slotState
    ⟨[1, 2, 3], 0, 0⟩ where
  placed :=
    { io := rfl
      table := ⟨fun cfg h => by
          obtain rfl := Option.some.inj h
          exact ⟨by decide, fun x h1 h2 => .inl ⟨h1, h2⟩⟩, fun _ _ _ _ _ => rfl⟩
      pos := by decide
      file := fun f hf => by
        obtain rfl := Option.some.inj ((AList.lookup_insert _).symm.trans hf)
        exact .inr ⟨0, 0x20000, slotFile_slotted, by decide⟩ }
  file := ⟨slotFile, ⟨AList.lookup_insert _, rfl, nofun, fun _ => rfl⟩, by decide, rfl⟩
  size := by decide
  bound := by decide

/-- Move to the second byte in the guest, and read two bytes there. -/
def readTail : List ServedEvent :=
  [.call .guestSetFilePointer ⟨0, 0x67000001, 1, 0, FILE_BEGIN, 0x8000, 0⟩,
   .call .guestReadFile ⟨0, 0x67000001, 0x1000, 2, 0x2000, 0x8000, 0⟩]

/-- Move to the end in the guest, write one byte, and ask for the size. -/
def appendOne : List ServedEvent :=
  [.call .guestSetFilePointer ⟨0, 0x67000001, 0, 0, FILE_END, 0x8000, 0⟩,
   .call (.host .writeFile) ⟨0, 0x67000001, 0x1000, 1, 0x2000, 0x8000, 0⟩,
   .call (.host .getFileSize) ⟨0, 0x67000001, 0, 0, 0, 0x8000, 0⟩]

theorem slotRegion_off {a n : ℕ} (h : a + n ≤ 0x10000) : OffRegion slotRegion a n := by
  rintro x - hx (⟨h1, -⟩ | ⟨h1, -⟩) <;> omega

/-- A seek and a read in the guest are in order. -/
theorem readTail_inOrder :
    AllInOrder slotConfig.tableVa slotRegion 16 0x67000001 readTail .host slotMem slotState := by
  refine ⟨rfl, slotRegion_off (by decide), fun f hf => ?_⟩
  obtain rfl := Option.some.inj ((AList.lookup_insert _).symm.trans hf)
  refine ⟨?_, fun _ => ⟨rfl, slotRegion_off (by decide), fun f hf => ?_⟩⟩
  · rw [CallInOrder, if_pos (by decide)]
    exact ⟨slotRegion_off (by decide), by decide, nofun, nofun⟩
  generalize hr : servedCall slotConfig.tableVa .guestSetFilePointer
    ⟨⟨0, 0x67000001, 1, 0, FILE_BEGIN, 0x8000, 0⟩, slotMem⟩ slotState = r at hf ⊢
  have hfile : r.2.2.openFiles.lookup 0x67000001 = some slotFile := by
    subst hr
    decide +kernel
  have hva : slotFile.slotVa r.2.2.guestIo = some 0x10000 := by
    subst hr
    decide +kernel
  have hsize : r.2.1.mem.loadLe (wrappingAdd 0x10000 16) 8 = some 3 := by
    subst hr
    decide +kernel
  have hmirror : r.2.1.mem.load 0x20000 3 = some [1, 2, 3] := by
    subst hr
    decide +kernel
  obtain rfl := Option.some.inj (hfile.symm.trans hf)
  refine ⟨?_, fun _ => trivial⟩
  rw [CallInOrder, if_pos (by decide)]
  refine ⟨⟨slotRegion_off (by decide), slotRegion_off (by decide)⟩, by decide, by decide, by decide,
    fun hh => absurd hh (by decide +kernel), fun slotVa h => ?_, fun va h => ?_⟩
  · obtain rfl := Option.some.inj (hva.symm.trans h)
    exact hsize
  · obtain rfl := Option.some.inj h
    exact hmirror

/-- Two bytes are read after a seek, as from the plain file. -/
theorem served_as_plain_tail : (runServed slotConfig.tableVa readTail slotMem slotState).1 =
    ((⟨[1, 2, 3], 0, 0⟩ : PlainFile).run (readTail.map ServedEvent.plain) slotMem).1 :=
  (served_as_plain readTail (.refl _ _) slotState_tracks readTail_inOrder).1

/-- **A write after a seek of the guest** goes to where the host was. -/
theorem not_served_as_plain : ∃ m s p, Follows slotConfig slotRegion 16 0x67000001 none .host m s p ∧
    (runServed slotConfig.tableVa appendOne m s).1 ≠
      (p.run (appendOne.map ServedEvent.plain) m).1 :=
  ⟨_, _, _, slotState_tracks, by decide +kernel⟩

end Wie
