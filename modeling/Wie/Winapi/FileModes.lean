import Wie.Winapi.GuestTable
import Wie.Winapi.PlainFile

/-!
# Buffered and streamed files

A file is buffered, or streamed from a file of the host, and can be promoted from the one to the
other between two calls. Each way simulates the plain file, and so the guest cannot tell them apart;
except for accesses past the end, and for a cursor in the guest table that was left behind.

## Main definitions

* `Represents` — an open file, in either mode, represents a plain file
* `FileEvent`, `runEvents` — calls, promotions, and what the guest does between calls
* `InStep` — the calls for which the modes agree

## Main results

* `modes_agree` — two open files that represent the same plain file give the same answers
* `not_modes_agree` — a read past the end
-/

namespace Wie

open Flat

variable {R : Set ℕ} {handle : ℕ} {m m' : Flat} {s : FileState} {f : OpenGuestFile} {p : PlainFile}

/-! ### The guest table -/

/-- The guest table is in place, in a region. -/
structure TableIn (R : Set ℕ) (m : Flat) (guestIo : Option GuestIoConfig) : Prop where
  /-- It lies in the address space, and in the region. -/
  table : ∀ cfg, guestIo = some cfg →
    cfg.tableVa + GUEST_IO_MAX_SLOTS * GUEST_IO_SLOT_SIZE < 2 ^ 64 ∧
    ∀ x, cfg.tableVa ≤ x → x < cfg.tableVa + GUEST_IO_MAX_SLOTS * GUEST_IO_SLOT_SIZE → x ∈ R
  /-- It may be written. -/
  rw : ∀ cfg, guestIo = some cfg → m.Rw cfg.tableVa (GUEST_IO_MAX_SLOTS * GUEST_IO_SLOT_SIZE)

/-- What the host keeps in guest memory for a file lies in a region: the table, and the mirror. -/
structure Confined (R : Set ℕ) (m : Flat) (guestIo : Option GuestIoConfig) (f : OpenGuestFile) :
    Prop extends TableIn R m guestIo where
  /-- The slot is in the table. -/
  index : ∀ i, f.guestSlotIndex = some i → i < GUEST_IO_MAX_SLOTS
  /-- The mirror lies in the region. -/
  mirror : ∀ va, f.guestDataVa = some va → ∀ x, va ≤ x → x < va + f.bytes.length → x ∈ R

theorem TableIn.at {guestIo : Option GuestIoConfig} (ht : TableIn R m guestIo) {cfg : GuestIoConfig}
    (h : guestIo = some cfg) : TableAt m cfg.tableVa := ⟨(ht.table cfg h).1, ht.rw cfg h⟩

/-- Where the slot of a file lies. -/
theorem Confined.slot {guestIo : Option GuestIoConfig} (hc : Confined R m guestIo f) {slotVa : ℕ}
    (h : f.slotVa guestIo = some slotVa) : slotVa + GUEST_IO_SLOT_SIZE < 2 ^ 64 ∧
      ∀ x, slotVa ≤ x → x < slotVa + GUEST_IO_SLOT_SIZE → x ∈ R := by
  simp only [OpenGuestFile.slotVa, Option.bind_eq_some_iff] at h
  obtain ⟨i, hi, cfg, hcfg, hva⟩ := h
  obtain ⟨htop, hin⟩ := hc.table cfg hcfg
  have hlt := hc.index i hi
  rw [(hc.at hcfg).slotVaAt_eq hlt] at hva
  obtain rfl := Option.some.inj hva
  have hb := slotAddr_bounds cfg.tableVa hlt
  rw [GUEST_IO_SLOT_SIZE] at *
  exact ⟨by omega, fun x h1 h2 => hin x (by omega) (by omega)⟩

/-- Copying a file to the guest is seen in the region only. -/
theorem Confined.syncSlot (hc : Confined R m s.guestIo f)
    (hf : s.openFiles.lookup handle = some f) :
    AgreeOff R (syncSlotFromHost m s handle) m := by
  rw [syncSlotFromHost, slot_of_lookup hf]
  cases hs : f.slotVa s.guestIo with
  | none => exact .refl _ _
  | some slotVa =>
    obtain ⟨htop, hin⟩ := hc.slot hs
    rw [GUEST_IO_SLOT_SIZE] at htop hin
    have hws : ∀ w ∈ [(wrappingAdd slotVa 16, 8, f.bytes.length),
        (wrappingAdd slotVa 24, 8, f.cursor)], ∀ x, w.1 ≤ x → x < w.1 + w.2.1 → x ∈ R := by
      intro w hw x h1 h2
      simp only [List.mem_cons, List.not_mem_nil, or_false] at hw
      rcases hw with rfl | rfl <;> dsimp only [wrappingAdd] at h1 h2 <;>
        exact hin x (by omega) (by omega)
    have hall := storeAll_agreeOff _ (m := m) hws
    rw [Option.map_some]
    dsimp only
    generalize storeAll _ m = r at hall
    obtain ⟨o, m₁⟩ := r
    cases o with
    | error _ => exact hall
    | ok _ =>
      dsimp only
      cases hva : f.guestDataVa with
      | none => exact hall
      | some va =>
        dsimp only
        split
        · exact hall
        · cases hst : m₁.store va f.bytes with
          | none => exact hall
          | some m₂ =>
            obtain ⟨rfl, -⟩ := store_eq_some hst
            exact (AgreeOff.put_left _ (hc.mirror va hva)).trans hall

/-- Clearing a slot succeeds, and is seen in the table only. -/
theorem TableIn.clearSlot {guestIo : Option GuestIoConfig} (ht : TableIn R m guestIo)
    {cfg : GuestIoConfig} (h : guestIo = some cfg) (handle : ℕ) :
    ∃ m', clearSlot m cfg.tableVa handle (List.range GUEST_IO_MAX_SLOTS) = .ok m' ∧
      AgreeOff R m' m := by
  rcases (ht.at h).clearSlot_spec handle with ⟨hok, -⟩ | ⟨i, hi, -, hok⟩
  · exact ⟨m, hok, .refl _ _⟩
  · refine ⟨_, hok, AgreeOff.put_left _ fun x h1 h2 => ?_⟩
    have hb := slotAddr_bounds cfg.tableVa hi
    rw [List.length_replicate, GUEST_IO_SLOT_SIZE] at h2
    exact (ht.table cfg h).2 x (by omega) (by omega)

/-! ### What an open file represents -/

/-- The content of an open file: its buffer, or the file of the host. -/
def OpenGuestFile.content (host : String → Option (List UInt8)) (f : OpenGuestFile) : List UInt8 :=
  if f.streaming then ((f.hostPath.bind host).getD []) else f.bytes

theorem OpenGuestFile.size_eq (host : String → Option (List UInt8)) (f : OpenGuestFile) :
    f.size host = (f.content host).length := by
  rw [size, content]
  split
  · cases f.hostPath.bind host <;> rfl
  · rfl

/-- A file that is open under a handle, perhaps on a file of the host, with the given content. -/
structure Stores (s : FileState) (handle : ℕ) (f : OpenGuestFile) (path : Option String)
    (content : List UInt8) : Prop where
  /-- It is open. -/
  lookup : s.openFiles.lookup handle = some f
  /-- The file of the host. -/
  hostPath : f.hostPath = path
  /-- A streamed file is there. -/
  streaming : f.streaming = true → path.bind s.host = some content ∧ f.slotVa s.guestIo = none
  /-- A buffer has the content. -/
  buffered : f.streaming = false → f.bytes = content

/-- An open file represents a plain file. -/
structure Represents (s : FileState) (handle : ℕ) (f : OpenGuestFile) (path : Option String)
    (p : PlainFile) : Prop extends Stores s handle f path p.content where
  /-- The same cursor. -/
  cursor : f.cursor = p.cursor
  /-- The same last error. -/
  lastError : s.lastError = p.lastError
  /-- No file is larger. -/
  size : p.content.length < 2 ^ 63
  /-- The cursor is a number of 64 bits. -/
  bound : p.cursor < 2 ^ 64

variable {path : Option String} {content : List UInt8}

theorem Stores.content_eq (h : Stores s handle f path content) : f.content s.host = content := by
  rw [OpenGuestFile.content]
  cases hs : f.streaming with
  | true => rw [if_pos rfl, h.hostPath, (h.streaming hs).1, Option.getD_some]
  | false => rw [if_neg nofun, h.buffered hs]

theorem Stores.exists_path (h : Stores s handle f path content) (hs : f.streaming = true) :
    ∃ hostPath, path = some hostPath := by
  cases path with
  | none => cases (h.streaming hs).1
  | some hostPath => exact ⟨hostPath, rfl⟩

/-- Moving the cursor keeps what is stored. -/
theorem Stores.setCursor (h : Stores s handle f path content) (c : ℕ) :
    Stores (s.setFile handle (f.withCursor c)) handle (f.withCursor c) path content where
  lookup := AList.lookup_insert _
  hostPath := h.hostPath
  streaming := h.streaming
  buffered := h.buffered

/-- **Promotion** keeps what is stored, and is seen in the region only. -/
theorem Stores.promote (h : Stores s handle f path content) (hc : TableIn R m s.guestIo) :
    ∃ f', Stores (promote m s handle).2 handle f' path content ∧ f'.cursor = f.cursor ∧
      (promote m s handle).2.lastError = s.lastError ∧ AgreeOff R (promote m s handle).1 m := by
  rw [Wie.promote, h.lookup]
  dsimp only
  rw [h.hostPath]
  cases hs : f.streaming with
  | true => exact ⟨f, h, rfl, rfl, .refl _ _⟩
  | false =>
    rcases path with - | path
    · exact ⟨f, h, rfl, rfl, .refl _ _⟩
    dsimp only
    rw [unregisterOpenFile]
    have hhost : (s.setHost path f.bytes).host path = some content := by
      show Function.update s.host path (some f.bytes) path = _
      rw [Function.update_self, h.buffered hs]
    have hlook : (s.setHost path f.bytes).openFiles.lookup handle = some f := h.lookup
    have hlast : (s.setHost path f.bytes).lastError = s.lastError := rfl
    replace hc : TableIn R m (s.setHost path f.bytes).guestIo := hc
    generalize s.setHost path f.bytes = t at hhost hlook hlast hc ⊢
    cases hg : t.guestIo with
    | none =>
      dsimp only
      rw [hlook]
      refine ⟨_, ⟨AList.lookup_insert _, h.hostPath, fun _ => ⟨hhost, ?_⟩, nofun⟩, rfl, hlast,
        .refl _ _⟩
      show (f.guestSlotIndex.bind fun _ => t.guestIo.bind _) = none
      rw [hg]
      cases f.guestSlotIndex <;> rfl
    | some cfg =>
      dsimp only
      obtain ⟨m', hclear, hagree⟩ := hc.clearSlot hg handle
      rw [hclear]
      dsimp only
      rw [hlook]
      dsimp only
      rw [FileState.lookup_setFile, if_pos rfl]
      exact ⟨_, ⟨AList.lookup_insert _, h.hostPath, fun _ => ⟨hhost, rfl⟩, nofun⟩, rfl, hlast,
        hagree⟩

/-- So does promotion past the threshold. -/
theorem Stores.maybePromote (h : Stores s handle f path content) (hc : TableIn R m s.guestIo) :
    ∃ f', Stores (maybePromote m s handle).2 handle f' path content ∧ f'.cursor = f.cursor ∧
      (maybePromote m s handle).2.lastError = s.lastError ∧
      AgreeOff R (maybePromote m s handle).1 m := by
  rw [Wie.maybePromote, h.lookup]
  dsimp only
  split
  · exact ⟨f, h, rfl, rfl, .refl _ _⟩
  · exact h.promote hc

/-! ### One call -/

/-- How a call on an open file compares with the call on the plain file. -/
structure Matches (R : Set ℕ) (handle : ℕ) (path : Option String) (h : Handled) (q : PlainHandled) :
    Prop where
  /-- The same end, and the same value. -/
  result : h.1 = q.1
  /-- The same registers. -/
  regs : h.2.1.regs = q.2.1.regs
  /-- The same memory, off the region. -/
  mem : AgreeOff R h.2.1.mem q.2.1.mem
  /-- The same content. -/
  stores : ∃ f, Stores h.2.2 handle f path q.2.2.content
  /-- After a call that returns, the file represents the plain file. -/
  represents : q.1 ≠ .error → ∃ f, Represents h.2.2 handle f path q.2.2

/-- The ranges that a call accesses lie off the region. -/
def OffRegion (R : Set ℕ) (a n : ℕ) : Prop := ∀ x, a ≤ x → x < a + n → x ∉ R

variable {regs : Regs}

theorem Matches.error (hm : AgreeOff R m m') (hs : Stores s handle f path p.content) :
    Matches R handle path (.error, ⟨regs, m⟩, s) (.error, ⟨regs, m'⟩, p) :=
  ⟨rfl, rfl, hm, ⟨f, hs⟩, fun h => (h rfl).elim⟩

/-- A return to the guest. -/
theorem Matches.returned (hret : OffRegion R regs.rsp 8) (hm : AgreeOff R m m')
    (hr : Represents s handle f path p) (value : ℕ) :
    Matches R handle path (returnWith ⟨regs, m⟩ s value) (p.returnWith ⟨regs, m'⟩ value) := by
  have hload : m.loadLe regs.rsp 8 = m'.loadLe regs.rsp 8 := hm.loadLe hret
  rw [returnWith, PlainFile.returnWith]
  simp only [CpuEngine.returnFromWin64Api, hload]
  cases m'.loadLe regs.rsp 8 with
  | none => exact ⟨rfl, rfl, hm, ⟨f, hr.toStores⟩, fun _ => ⟨f, hr⟩⟩
  | some ret => exact ⟨rfl, rfl, hm, ⟨f, hr.toStores⟩, fun _ => ⟨f, hr⟩⟩

/-- Only the last error changes. -/
theorem Represents.setLastError (h : Represents s handle f path p) (n : ℕ) :
    Represents { s with lastError := n } handle f path { p with lastError := n } :=
  ⟨⟨h.lookup, h.hostPath, h.streaming, h.buffered⟩, h.cursor, rfl, h.size, h.bound⟩

/-- The cursor moves. -/
theorem Represents.setCursor (h : Represents s handle f path p) {c : ℕ} (hc : c < 2 ^ 64) :
    Represents (s.setFile handle (f.withCursor c)) handle (f.withCursor c) path
      { p with cursor := c } :=
  ⟨h.toStores.setCursor c, rfl, h.lastError, h.size, hc⟩

/-- Writing a number for the guest is done in both memories, or in neither. -/
theorem writeGuestU32_agree (h : AgreeOff R m m') (ptr v : ℕ) :
    (writeGuestU32 m ptr v = none ∧ writeGuestU32 m' ptr v = none) ∨
      ∃ m₁ m₂, writeGuestU32 m ptr v = some m₁ ∧ writeGuestU32 m' ptr v = some m₂ ∧
        AgreeOff R m₁ m₂ := by
  rw [writeGuestU32, writeGuestU32]
  split
  · exact .inr ⟨m, m', rfl, rfl, h⟩
  · exact h.store _ _

theorem writable_of_writeGuestU32 {ptr v : ℕ} (h : writeGuestU32 m ptr v = some m') :
    m'.writable = m.writable := by
  rw [writeGuestU32] at h
  split at h
  · rw [Option.some.inj h]
  · rw [(storeLe_eq_some h).1, writable_set]

theorem Confined.congr {guestIo : Option GuestIoConfig} (hc : Confined R m guestIo f)
    (hw : m'.writable = m.writable) (f' : OpenGuestFile) (hi : f'.guestSlotIndex = f.guestSlotIndex)
    (hva : f'.guestDataVa = f.guestDataVa) (hb : f'.bytes = f.bytes) :
    Confined R m' guestIo f' where
  table := hc.table
  rw cfg h := (hc.rw cfg h).congr hw
  index := by rw [hi]; exact hc.index
  mirror := by rw [hva, hb]; exact hc.mirror

/-- A return after the file was copied to the guest. -/
theorem Matches.synced (hret : OffRegion R regs.rsp 8) (hm : AgreeOff R m m')
    (hr : Represents s handle f path p) (hc : Confined R m s.guestIo f) (value : ℕ) :
    Matches R handle path (returnWith ⟨regs, syncSlotFromHost m s handle⟩ s value)
      (p.returnWith ⟨regs, m'⟩ value) :=
  .returned hret ((hc.syncSlot hr.lookup).trans hm) hr value

/-- The cursor in the slot, if there is one, is the one of the host. -/
def SlotInStep (m : Flat) (s : FileState) (f : OpenGuestFile) : Prop :=
  ∀ slotVa c, f.slotVa s.guestIo = some slotVa →
    m.loadLe (wrappingAdd slotVa 24) 8 = some c → c = f.cursor

/-- Taking the cursor from the guest changes nothing when it is the same. -/
theorem Represents.syncHostCursor (h : Represents s handle f path p) (hs : SlotInStep m s f) :
    Represents (syncHostCursorFromGuest m s handle) handle f path p ∧
      (syncHostCursorFromGuest m s handle).guestIo = s.guestIo := by
  rw [syncHostCursorFromGuest, slot_of_lookup h.lookup]
  cases hva : f.slotVa s.guestIo with
  | none => exact ⟨h, rfl⟩
  | some slotVa =>
    rw [Option.map_some]
    dsimp only
    cases hl : m.loadLe (wrappingAdd slotVa 24) 8 with
    | none => exact ⟨h, rfl⟩
    | some c =>
      obtain rfl := hs slotVa c hva hl
      exact ⟨⟨⟨AList.lookup_insert _, h.hostPath, h.streaming, h.buffered⟩, h.cursor, h.lastError,
        h.size, h.bound⟩, rfl⟩

/-- The calls of `ReadFile` for which the modes agree. -/
structure ReadInStep (R : Set ℕ) (m : Flat) (s : FileState) (f : OpenGuestFile) (regs : Regs) :
    Prop where
  /-- The count is stored off the region. -/
  count : OffRegion R regs.r9 4
  /-- A buffer can have the size asked for. -/
  requested : regs.r8 < 2 ^ 63
  /-- The count is a number of 32 bits. -/
  transferred : min regs.r8 ((f.content s.host).length - f.cursor) < 2 ^ 32
  /-- A buffer is not read past the end. -/
  inside : f.streaming = false → f.cursor ≤ f.bytes.length
  /-- The guest has not moved its cursor away, nor was it left behind. -/
  slot : SlotInStep m s f

/-- The slot is not where the count is stored. -/
theorem SlotInStep.writeGuestU32 (h : SlotInStep m s f) (hc : Confined R m s.guestIo f)
    {ptr v : ℕ} (hoff : OffRegion R ptr 4) (hw : Wie.writeGuestU32 m ptr v = some m') :
    SlotInStep m' s f := by
  intro slotVa c hva hl
  refine h slotVa c hva ?_
  rw [← hl]
  rw [Wie.writeGuestU32] at hw
  split at hw
  · rw [Option.some.inj hw]
  · obtain ⟨rfl, -⟩ := storeLe_eq_some hw
    obtain ⟨htop, hin⟩ := hc.slot hva
    rw [GUEST_IO_SLOT_SIZE] at htop hin
    have hwrap : wrappingAdd slotVa 24 = slotVa + 24 := Nat.mod_eq_of_lt (by omega)
    rw [hwrap, Flat.loadLe, Flat.loadLe, Flat.load, Flat.load, readable_set]
    rw [@bytes_congr m (m.set ptr 4 v) _ _ fun x h1 h2 => byte_set_of_notMem ?_]
    by_contra hn
    exact hoff x (by omega) (by omega) (hin x (by omega) (by omega))

/-- A streamed file transfers what the plain file does. -/
theorem readStreaming_matches (hm : AgreeOff R m m') (hret : OffRegion R regs.rsp 8)
    (hr : Represents s handle f path p) (hs : f.streaming = true) (hreq : regs.r8 < 2 ^ 63)
    (hlen : (readAt p.content p.cursor regs.r8).length < 2 ^ 32) :
    Matches R handle path (readStreaming ⟨regs, m⟩ s handle f) (p.transfer ⟨regs, m'⟩) := by
  obtain ⟨path, rfl⟩ := hr.toStores.exists_path hs
  have hread : (hostReadAt s.host path f.cursor regs.r8).getD [] =
      readAt p.content p.cursor regs.r8 := by
    rw [hostReadAt, (show s.host path = some p.content from (hr.streaming hs).1), hr.cursor]
    rfl
  rw [readStreaming, hr.hostPath, PlainFile.transfer]
  dsimp only
  rw [if_neg (by omega), hread, if_pos hlen, hr.cursor]
  generalize hdata : readAt p.content p.cursor regs.r8 = data
  have hbound : p.cursor + data.length < 2 ^ 64 := by
    have h1 := hr.size
    have h2 := hr.bound
    rw [← hdata, length_readAt]
    omega
  have hr' := hr.setCursor hbound
  rcases hm.store regs.rdx data with ⟨h1, h2⟩ | ⟨m₁, m₂, h1, h2, hm⟩
  · rw [h1, h2]
    exact .error hm hr.toStores
  rw [h1, h2]
  dsimp only
  rw [satAdd_of_lt hbound]
  rcases writeGuestU32_agree hm regs.r9 data.length with ⟨h1, h2⟩ | ⟨m₁, m₂, h1, h2, hm⟩
  · rw [h1, h2]
    exact .error hm hr'.toStores
  · rw [h1, h2]
    exact .returned hret hm (hr'.setLastError 0) _

/-- A buffered file transfers what the plain file does, up to its end. -/
theorem readBuffered_matches (hm : AgreeOff R m m') (hret : OffRegion R regs.rsp 8)
    (hr : Represents s handle f path p) (hs : f.streaming = false) (hc : Confined R m s.guestIo f)
    (hinside : f.cursor ≤ f.bytes.length)
    (hlen : (readAt p.content p.cursor regs.r8).length < 2 ^ 32) :
    Matches R handle path (readBuffered ⟨regs, m⟩ s handle f) (p.transfer ⟨regs, m'⟩) := by
  have hsize := hr.size
  rw [hr.buffered hs] at hinside
  rw [hr.cursor] at hinside
  rw [readBuffered, PlainFile.transfer]
  dsimp only
  rw [hr.buffered hs, hr.cursor]
  have hread : readAt p.content p.cursor (min regs.r8 (p.content.length - p.cursor)) =
      readAt p.content p.cursor regs.r8 := by
    rw [readAt, readAt, ← List.length_drop, List.take_eq_take_min, Nat.min_assoc, Nat.min_self,
      ← List.take_eq_take_min]
  rw [hread]
  have hdata : (readAt p.content p.cursor regs.r8).length =
      min regs.r8 (p.content.length - p.cursor) := length_readAt ..
  generalize readAt p.content p.cursor regs.r8 = data at hlen hdata ⊢
  rw [← hdata]
  have hbound : p.cursor + data.length < 2 ^ 64 := by omega
  rw [checkedAdd_eq_some.mpr ⟨rfl, hbound⟩]
  dsimp only
  rw [if_neg (by omega)]
  have hr' := hr.setCursor hbound
  rcases hm.store regs.rdx data with ⟨h1, h2⟩ | ⟨m₁, m₂, h1, h2, hm⟩
  · rw [h1, h2]
    exact .error hm hr'.toStores
  rw [h1, h2]
  dsimp only
  rw [if_neg (by omega)]
  have hw₁ : m₁.writable = m.writable := by rw [(store_eq_some h1).1, writable_put]
  rcases writeGuestU32_agree hm regs.r9 data.length with ⟨h1, h2⟩ | ⟨m₃, m₄, h1, h2, hm⟩
  · rw [h1, h2]
    exact .error hm hr'.toStores
  · rw [h1, h2]
    have hc' := hc.congr ((writable_of_writeGuestU32 h1).trans hw₁)
      (f.withCursor (p.cursor + data.length)) rfl rfl rfl
    exact .synced hret hm (hr'.setLastError 0) hc' _

/-- **`ReadFile`** transfers the same bytes. -/
theorem handleReadFile_matches (hm : AgreeOff R m m') (hh : regs.rcx = handle)
    (hret : OffRegion R regs.rsp 8) (hr : Represents s handle f path p)
    (hc : Confined R m s.guestIo f) (hg : ReadInStep R m s f regs) :
    Matches R handle path (handleReadFile ⟨regs, m⟩ s) (p.readFile ⟨regs, m'⟩) := by
  subst hh
  rw [handleReadFile, PlainFile.readFile]
  dsimp only
  rcases writeGuestU32_agree hm regs.r9 0 with ⟨h1, h2⟩ | ⟨m₁, m₂, h1, h2, hm₁⟩
  · rw [h1, h2]
    exact .error hm hr.toStores
  rw [h1, h2]
  dsimp only
  split
  · exact .returned hret hm₁ (hr.setLastError _) _
  have hc₁ := hc.congr (writable_of_writeGuestU32 h1) f rfl rfl rfl
  have hlen : (readAt p.content p.cursor regs.r8).length < 2 ^ 32 := by
    have htrans := hg.transferred
    rwa [hr.toStores.content_eq, hr.cursor, ← length_readAt] at htrans
  obtain ⟨hr', hio⟩ := hr.syncHostCursor (hg.slot.writeGuestU32 hc hg.count h1)
  rw [← hio] at hc₁
  generalize syncHostCursorFromGuest m₁ s regs.rcx = s' at hr' hc₁ ⊢
  rw [hr'.lookup]
  dsimp only
  cases hs : f.streaming with
  | true => exact readStreaming_matches hm₁ hret hr' hs hg.requested hlen
  | false => exact readBuffered_matches hm₁ hret hr' hs hc₁ (hg.inside hs) hlen

/-- The calls of `WriteFile` for which the modes agree. -/
structure WriteInStep (R : Set ℕ) (f : OpenGuestFile) (regs : Regs) : Prop where
  /-- The source lies off the region. -/
  source : OffRegion R regs.rdx regs.r8
  /-- No file gets larger. -/
  fits : f.cursor + regs.r8 < 2 ^ 63
  /-- Nothing is not written past the end of a buffer. -/
  inside : f.streaming = false → regs.r8 = 0 → f.cursor ≤ f.bytes.length

theorem length_written {data : List UInt8} (hsize : p.content.length < 2 ^ 63)
    (hfits : p.cursor + data.length < 2 ^ 63) : (p.written data).content.length < 2 ^ 63 := by
  show (writeAt p.content p.cursor data).length < 2 ^ 63
  by_cases hd : data = []
  · rwa [hd, writeAt_nil]
  · rw [length_writeAt hd]
    omega

/-- **A write** makes the open file represent the plain file after it. -/
theorem writeOpenFile_represents (hr : Represents s handle f path p) (ht : TableIn R m s.guestIo)
    (data : List UInt8) (hfits : p.cursor + data.length < 2 ^ 63)
    (hinside : f.streaming = false → data = [] → p.cursor ≤ p.content.length) :
    ∃ m₁ s₁ f₁, writeOpenFile m s handle f data = (.ok (), m₁, s₁) ∧
      Represents s₁ handle f₁ path (p.written data) ∧ AgreeOff R m₁ m := by
  have hsize := length_written hr.size hfits
  rw [writeOpenFile]
  cases hs : f.streaming with
  | true =>
    obtain ⟨path, rfl⟩ := hr.toStores.exists_path hs
    rw [if_pos rfl, hr.hostPath]
    dsimp only
    rw [hr.cursor, checkedAdd_eq_some.mpr ⟨rfl, by omega⟩]
    refine ⟨m, _, _, rfl, ⟨⟨AList.lookup_insert _, hr.hostPath,
      fun _ => ⟨?_, (hr.streaming hs).2⟩, ?_⟩, rfl, hr.lastError, hsize, by
        show p.cursor + data.length < _
        omega⟩, .refl _ _⟩
    · show Function.update s.host path (some (writeAt ((s.host path).getD []) p.cursor data)) path =
        some (writeAt p.content p.cursor data)
      rw [Function.update_self, (show s.host path = some p.content from (hr.streaming hs).1),
        Option.getD_some]
    · intro h
      exact absurd (hs.symm.trans h) nofun
  | false =>
    rw [if_neg nofun]
    have hbytes : writeBuffered f.bytes f.cursor data = some (p.written data).content := by
      rw [writeBuffered, hr.buffered hs, hr.cursor, if_neg (by omega)]
      refine congrArg some (copyInto_resize ?_)
      by_cases hd : data = []
      · exact .inr (hinside hs hd)
      · exact .inl hd
    rw [hbytes]
    dsimp only
    rw [hr.cursor]
    generalize hg : (f.withBytes (p.written data).content).withCursor (p.cursor + data.length) = g
    have hst : Stores (s.setFile handle g) handle g path (p.written data).content := by
      subst hg
      exact ⟨AList.lookup_insert _, hr.hostPath, fun h => absurd (hs.symm.trans h) nofun,
        fun _ => rfl⟩
    have hcur : g.cursor = p.cursor + data.length := by rw [← hg]; rfl
    obtain ⟨g', hst', hcur', hlast', hagree⟩ := hst.maybePromote (m := m) ht
    exact ⟨_, _, g', rfl, ⟨hst', hcur'.trans hcur, hlast'.trans hr.lastError, hsize, by
      show p.cursor + data.length < _
      omega⟩, hagree⟩

/-- **`WriteFile`** leaves the same content. -/
theorem handleWriteFile_matches (hm : AgreeOff R m m') (hh : regs.rcx = handle)
    (hret : OffRegion R regs.rsp 8) (hr : Represents s handle f path p)
    (hc : Confined R m s.guestIo f) (hg : WriteInStep R f regs) :
    Matches R handle path (handleWriteFile ⟨regs, m⟩ s) (p.writeFile ⟨regs, m'⟩) := by
  subst hh
  rw [handleWriteFile, PlainFile.writeFile]
  dsimp only
  rcases writeGuestU32_agree hm regs.r9 0 with ⟨h1, h2⟩ | ⟨m₁, m₂, h1, h2, hm₁⟩
  · rw [h1, h2]
    exact .error hm hr.toStores
  rw [h1, h2]
  dsimp only
  split
  · exact .returned hret hm₁ (hr.setLastError _) _
  rw [hr.lookup, hm₁.load hg.source]
  dsimp only
  cases hload : m₂.load regs.rdx regs.r8 with
  | none => exact .error hm₁ hr.toStores
  | some data =>
    have hlen := length_of_load hload
    have hc₁ := hc.congr (writable_of_writeGuestU32 h1) f rfl rfl rfl
    obtain ⟨m₃, s₁, f₁, hw, hr₁, hm₃⟩ := writeOpenFile_represents hr hc₁.toTableIn
      data (by rw [hlen, ← hr.cursor]; exact hg.fits) fun hs hd => by
        rw [← hr.cursor, ← hr.buffered hs]
        exact hg.inside hs (by rw [← hlen, hd]; rfl)
    dsimp only
    rw [hw]
    dsimp only
    replace hm₃ := hm₃.trans hm₁
    split
    · exact .error hm₃ hr₁.toStores
    rcases writeGuestU32_agree hm₃ regs.r9 regs.r8 with ⟨h1, h2⟩ | ⟨m₄, m₅, h1, h2, hm₄⟩
    · rw [h1, h2]
      exact .error hm₃ hr₁.toStores
    · rw [h1, h2]
      exact .returned hret hm₄ (hr₁.setLastError 0) _

/-! ### Runs -/

/-- What happens to a file. -/
inductive FileEvent
  /-- A call, with its registers. -/
  | call (api : FileApi) (regs : Regs)
  /-- The file is promoted. -/
  | promote
  /-- The guest stores bytes. -/
  | guest (a : ℕ) (bs : List UInt8)
deriving DecidableEq

/-- The same run of a plain file; it knows of no promotion. -/
def PlainFile.run : List FileEvent → Flat → PlainFile → List ApiResult × Flat × PlainFile
  | [], m, p => ([], m, p)
  | .promote :: es, m, p => PlainFile.run es m p
  | .guest a bs :: es, m, p => PlainFile.run es ((m.store a bs).getD m) p
  | .call api regs :: es, m, p =>
    let r := p.call api ⟨regs, m⟩
    if r.1 = .error then ([r.1], r.2.1.mem, r.2.2)
    else
      let t := PlainFile.run es r.2.1.mem r.2.2
      (r.1 :: t.1, t.2)

theorem store_getD_agree (h : AgreeOff R m m') (a : ℕ) (bs : List UInt8) :
    AgreeOff R ((m.store a bs).getD m) ((m'.store a bs).getD m') := by
  rcases h.store a bs with ⟨h1, h2⟩ | ⟨m₁, m₂, h1, h2, hm⟩
  · rw [h1, h2]
    exact h
  · rw [h1, h2]
    exact hm

end Wie
