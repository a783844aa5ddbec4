import Wie.Winapi.FileModes
import Wie.Winapi.GuestIo

/-!
# Where the slot of a file is

A file with a slot is looked for by two sides: the host knows its index, and the routines of the
guest find it by its handle. The handlers of the host keep the file where both look for it.

## Main definitions

* `Slotted`, `Unslotted` — files with and without a slot
* `Placed` — the table is in place, and the file is where both sides look for it
* `Leaves` — what a call leaves, unless it is an error

## Main results

* `Placed.promoted` — after promotion there is no slot
* `Placed.handleReadFile`, `Placed.handleWriteFile` — handlers keep a file in its place
-/

namespace Wie

open Flat

/-- A file with a slot in the guest table and a mirror. -/
structure Slotted (cfg : GuestIoConfig) (R : Set ℕ) (m : Flat) (handle : ℕ) (room : ℕ)
    (f : OpenGuestFile) (i va : ℕ) : Prop where
  /-- The host knows the slot. -/
  index : f.guestSlotIndex = some i
  /-- The host knows the mirror. -/
  dataVa : f.guestDataVa = some va
  /-- The slot is in the table. -/
  lt : i < GUEST_IO_MAX_SLOTS
  /-- It has the handle. -/
  owner : slotField m cfg.tableVa i 0 = handle
  /-- It has the address of the mirror. -/
  mirror : slotField m cfg.tableVa i 8 = va
  /-- It is valid. -/
  valid : slotField m cfg.tableVa i 32 = GUEST_IO_FLAG_VALID
  /-- No other slot has the handle. -/
  only : ∀ j, j < GUEST_IO_MAX_SLOTS → j ≠ i → slotField m cfg.tableVa j 0 ≠ handle
  /-- The file is buffered. -/
  buffered : f.streaming = false
  /-- The mirror lies in the address space. -/
  top : va + room < 2 ^ 64
  /-- It may be written. -/
  rw : m.Rw va room
  /-- It lies in the region. -/
  inRegion : ∀ x, va ≤ x → x < va + room → x ∈ R
  /-- It is apart from the table. -/
  apart : va + room ≤ cfg.tableVa ∨
    cfg.tableVa + GUEST_IO_MAX_SLOTS * GUEST_IO_SLOT_SIZE ≤ va

/-- A file without a slot. -/
structure Unslotted (cfg : GuestIoConfig) (m : Flat) (handle : ℕ) (f : OpenGuestFile) : Prop where
  /-- There is no slot. -/
  index : f.guestSlotIndex = none
  /-- There is no mirror. -/
  dataVa : f.guestDataVa = none
  /-- No slot has the handle. -/
  free : ∀ j, j < GUEST_IO_MAX_SLOTS → slotField m cfg.tableVa j 0 ≠ handle

/-- The guest table is in place, and the file is where both sides look for it; its mirror has room
for the content. -/
structure Placed (cfg : GuestIoConfig) (R : Set ℕ) (room handle : ℕ) (m : Flat) (s : FileState) :
    Prop where
  /-- The table is installed. -/
  io : s.guestIo = some cfg
  /-- It is in place. -/
  table : TableIn R m (some cfg)
  /-- Handles are positive. -/
  pos : 0 < handle
  /-- The file has a slot, or not. -/
  file : ∀ f, s.openFiles.lookup handle = some f → Unslotted cfg m handle f ∨
    ∃ i va, Slotted cfg R m handle room f i va ∧ f.bytes.length ≤ room

variable {cfg : GuestIoConfig} {R : Set ℕ} {room handle i va : ℕ} {m m' : Flat}
  {s s' : FileState} {f f' : OpenGuestFile} {regs : Regs}

/-! ### What keeps a file in its place -/

/-- Memory changed off the region only. -/
theorem Flat.AgreeOff.slotField_eq (hm : AgreeOff Rᶜ m' m) (ht : TableIn R m (some cfg))
    (hi : i < GUEST_IO_MAX_SLOTS) {k : ℕ} (hk : k ≤ 32) :
    slotField m' cfg.tableVa i k = slotField m cfg.tableVa i k := by
  have hb := slotAddr_bounds cfg.tableVa hi
  exact get_congr fun x h1 h2 => hm.byte x fun hx =>
    hx ((ht.table cfg rfl).2 x (by omega) (by omega))

theorem Slotted.congr (h : Slotted cfg R m handle room f i va)
    (hfields : ∀ j, j < GUEST_IO_MAX_SLOTS → ∀ k, k = 0 ∨ k = 8 ∨ k = 32 →
      slotField m' cfg.tableVa j k = slotField m cfg.tableVa j k)
    (hw : m'.writable = m.writable) (hi : f'.guestSlotIndex = f.guestSlotIndex)
    (hva : f'.guestDataVa = f.guestDataVa) (hs : f'.streaming = f.streaming) :
    Slotted cfg R m' handle room f' i va where
  index := hi.trans h.index
  dataVa := hva.trans h.dataVa
  lt := h.lt
  owner := (hfields i h.lt 0 (.inl rfl)).trans h.owner
  mirror := (hfields i h.lt 8 (.inr (.inl rfl))).trans h.mirror
  valid := (hfields i h.lt 32 (.inr (.inr rfl))).trans h.valid
  only j hj hne := by
    rw [hfields j hj 0 (.inl rfl)]
    exact h.only j hj hne
  buffered := hs.trans h.buffered
  top := h.top
  rw := h.rw.congr hw
  inRegion := h.inRegion
  apart := h.apart

theorem Unslotted.congr (h : Unslotted cfg m handle f)
    (hfields : ∀ j, j < GUEST_IO_MAX_SLOTS →
      slotField m' cfg.tableVa j 0 = slotField m cfg.tableVa j 0)
    (hi : f'.guestSlotIndex = f.guestSlotIndex) (hva : f'.guestDataVa = f.guestDataVa) :
    Unslotted cfg m' handle f' where
  index := hi.trans h.index
  dataVa := hva.trans h.dataVa
  free j hj := by
    rw [hfields j hj]
    exact h.free j hj

theorem TableIn.congr (h : TableIn R m (some cfg)) (hw : m'.writable = m.writable) :
    TableIn R m' (some cfg) :=
  ⟨h.table, fun cfg' hcfg => (h.rw cfg' hcfg).congr hw⟩

/-- Changes that leave handles, mirrors and flags of the slots. -/
theorem Placed.congr (h : Placed cfg R room handle m s)
    (hfields : ∀ j, j < GUEST_IO_MAX_SLOTS → ∀ k, k = 0 ∨ k = 8 ∨ k = 32 →
      slotField m' cfg.tableVa j k = slotField m cfg.tableVa j k)
    (hw : m'.writable = m.writable) (hio : s'.guestIo = s.guestIo)
    (hfile : ∀ f', s'.openFiles.lookup handle = some f' →
      ∃ f, s.openFiles.lookup handle = some f ∧ f'.guestSlotIndex = f.guestSlotIndex ∧
        f'.guestDataVa = f.guestDataVa ∧ f'.streaming = f.streaming ∧
        (f.guestSlotIndex ≠ none → f.bytes.length ≤ room → f'.bytes.length ≤ room)) :
    Placed cfg R room handle m' s' where
  io := hio.trans h.io
  table := h.table.congr hw
  pos := h.pos
  file f' hf' := by
    obtain ⟨f, hf, hi, hva, hs, hfits⟩ := hfile f' hf'
    rcases h.file f hf with hun | ⟨i, va, hsl, hle⟩
    · exact .inl (hun.congr (fun j hj => hfields j hj 0 (.inl rfl)) hi hva)
    · refine .inr ⟨i, va, hsl.congr hfields hw hi hva hs, hfits ?_ hle⟩
      rw [hsl.index]
      exact nofun

/-- Memory changed off the region, and other files or the last error changed. -/
theorem Placed.frame (h : Placed cfg R room handle m s) (hm : AgreeOff Rᶜ m' m)
    (hio : s'.guestIo = s.guestIo)
    (hl : s'.openFiles.lookup handle = s.openFiles.lookup handle) :
    Placed cfg R room handle m' s' :=
  h.congr (fun j hj k hk => hm.slotField_eq h.table hj (by omega)) hm.writable hio fun f' hf' =>
    ⟨f', hl ▸ hf', rfl, rfl, rfl, fun _ => id⟩

/-- The cursor of the file moved. -/
theorem Placed.setCursor (h : Placed cfg R room handle m s)
    (hf : s.openFiles.lookup handle = some f) (c : ℕ) :
    Placed cfg R room handle m (s.setFile handle (f.withCursor c)) :=
  h.congr (fun _ _ _ _ => rfl) rfl rfl fun f' hf' => by
    rw [FileState.lookup_setFile, if_pos rfl] at hf'
    obtain rfl := Option.some.inj hf'
    exact ⟨f, hf, rfl, rfl, rfl, fun _ => id⟩

theorem Unslotted.slot_eq (h : Unslotted cfg m handle f) (hf : s.openFiles.lookup handle = some f) :
    s.slot handle = none := by
  rw [slot_of_lookup hf, OpenGuestFile.slotVa, h.index]
  rfl

theorem Placed.at (h : Placed cfg R room handle m s) : TableAt m cfg.tableVa := h.table.at rfl

/-- The address of the slot. -/
theorem Slotted.slotVa_eq (h : Slotted cfg R m handle room f i va)
    (hp : Placed cfg R room handle m s) : f.slotVa s.guestIo = some (slotAddr cfg.tableVa i) :=
  hp.at.slotVa_eq hp.io h.index h.lt

/-- Copying a file to the guest. -/
theorem Placed.sync (h : Placed cfg R room handle m s) :
    Placed cfg R room handle (syncSlotFromHost m s handle) s := by
  cases hf : s.openFiles.lookup handle with
  | none =>
    rw [syncSlotFromHost, FileState.slot, hf]
    exact h
  | some f =>
    rcases h.file f hf with hun | ⟨i, va, hsl, hle⟩
    · rw [syncSlotFromHost, hun.slot_eq hf]
      exact h
    · rw [h.at.syncSlot_eq h.io hf hsl.index hsl.lt]
      refine h.congr (fun j hj k hk => get_congr fun x h1 h2 => byte_synced ?_ ?_)
        (writable_synced ..) rfl fun f' hf' => ⟨f', hf', rfl, rfl, rfl, fun _ => id⟩
      · by_cases hji : j = i
        · subst hji
          omega
        · have := slotAddr_apart cfg.tableVa hji
          omega
      · intro va' hva
        obtain rfl := Option.some.inj (hsl.dataVa.symm.trans hva)
        have hb := slotAddr_bounds cfg.tableVa hj
        have := hsl.apart
        omega

/-- Taking the cursor back from the guest. -/
theorem Placed.syncCursor (h : Placed cfg R room handle m s) :
    Placed cfg R room handle m (syncHostCursorFromGuest m s handle) := by
  rw [syncHostCursorFromGuest]
  cases hs : s.slot handle with
  | none => exact h
  | some r =>
    obtain ⟨f, slotVa⟩ := r
    dsimp only
    cases m.loadLe (wrappingAdd slotVa 24) 8 with
    | none => exact h
    | some c =>
      rw [FileState.slot, Option.bind_eq_some_iff] at hs
      obtain ⟨g, hg, hslot⟩ := hs
      obtain ⟨va, -, he⟩ := Option.map_eq_some_iff.mp hslot
      cases he
      exact h.setCursor hg c

/-- A file that is not on the host is not promoted. -/
theorem promote_of_none (hf : s.openFiles.lookup handle = some f) (hp : f.hostPath = none) :
    promote m s handle = (m, s) := by
  rw [promote, hf]
  dsimp only
  rw [hp]
  cases f.streaming <;> rfl

/-- **After promotion there is no slot.** -/
theorem Placed.promoted (h : Placed cfg R room handle m s) {hostPath : String}
    (hf : s.openFiles.lookup handle = some f) {bytes : List UInt8} {c : ℕ}
    (hs : f.streaming = false) (hp : f.hostPath = some hostPath) :
    Placed cfg R room handle
      (promote m (s.setFile handle ((f.withBytes bytes).withCursor c)) handle).1
      (promote m (s.setFile handle ((f.withBytes bytes).withCursor c)) handle).2 := by
  generalize hg : (f.withBytes bytes).withCursor c = g
  have hgs : g.streaming = false := by rw [← hg]; exact hs
  have hgp : g.hostPath = some hostPath := by rw [← hg]; exact hp
  rw [promote, FileState.lookup_setFile, if_pos rfl]
  dsimp only
  rw [hgs, hgp]
  dsimp only
  have hio : ((s.setFile handle g).setHost hostPath g.bytes).guestIo = some cfg := h.io
  have hlook : ((s.setFile handle g).setHost hostPath g.bytes).openFiles.lookup handle = some g :=
    AList.lookup_insert _
  generalize (s.setFile handle g).setHost hostPath g.bytes = t at hio hlook ⊢
  rw [unregisterOpenFile, hio]
  dsimp only
  rcases h.at.clearSlot_spec handle with ⟨hok, hall⟩ | ⟨i, hi, hown, hok⟩
  · rw [hok]
    dsimp only
    rw [hlook]
    dsimp only
    rw [FileState.lookup_setFile, if_pos rfl]
    refine ⟨hio, h.table, h.pos, fun f' hf' => .inl ?_⟩
    dsimp only at hf'
    rw [FileState.lookup_setFile, if_pos rfl] at hf'
    obtain rfl := Option.some.inj hf'
    exact ⟨rfl, rfl, hall⟩
  · rw [hok]
    dsimp only
    rw [hlook]
    dsimp only
    rw [FileState.lookup_setFile, if_pos rfl]
    refine ⟨hio, h.table.congr rfl, h.pos, fun f' hf' => .inl ?_⟩
    dsimp only at hf'
    rw [FileState.lookup_setFile, if_pos rfl] at hf'
    obtain rfl := Option.some.inj hf'
    refine ⟨rfl, rfl, fun j hj => ?_⟩
    by_cases hji : j = i
    · subst hji
      have hzero : slotField (m.put (slotAddr cfg.tableVa j) (List.replicate GUEST_IO_SLOT_SIZE 0))
          cfg.tableVa j 0 = 0 := get_put_zeros (Nat.le_refl _) (by rw [GUEST_IO_SLOT_SIZE]; omega)
      rw [hzero]
      exact h.pos.ne
    · have hother : slotField (m.put (slotAddr cfg.tableVa i) (List.replicate GUEST_IO_SLOT_SIZE 0))
          cfg.tableVa j 0 = slotField m cfg.tableVa j 0 := get_congr fun x h1 h2 =>
        byte_put_of_notMem (by
          have := slotAddr_apart cfg.tableVa hji
          rw [List.length_replicate, GUEST_IO_SLOT_SIZE]
          omega)
      rw [hother]
      rcases h.file f hf with hun | ⟨k, va, hsl, -⟩
      · exact hun.free j hj
      · by_cases hjk : j = k
        · subst hjk
          exact absurd hown (hsl.only i hi (Ne.symm hji))
        · exact hsl.only j hj hjk

/-! ### Handlers keep a file in its place -/

/-- What a call leaves, unless it is an error. -/
def Leaves (P : Flat → FileState → Prop) (h : Handled) : Prop := h.1 ≠ .error → P h.2.1.mem h.2.2

theorem Leaves.error {P : Flat → FileState → Prop} {e : CpuEngine} : Leaves P (.error, e, s) :=
  fun h => (h rfl).elim

theorem Leaves.returned {P : Flat → FileState → Prop} {e : CpuEngine} (h : P e.mem s)
    (value : ℕ) : Leaves P (returnWith e s value) := fun _ => by
  show P (e.returnFromWin64Api value).2.mem s
  rwa [CpuEngine.returnFromWin64Api_mem]

/-- The ranges that a handler writes to for the guest lie off the region. -/
def HostOff (R : Set ℕ) (regs : Regs) : FileApi → Prop
  | .readFile => OffRegion R regs.r9 4 ∧ OffRegion R regs.rdx regs.r8
  | .writeFile => OffRegion R regs.r9 4 ∧ OffRegion R regs.rdx regs.r8
  | .setFilePointer => OffRegion R regs.r8 4
  | .getFileSize => OffRegion R regs.rdx 4

/-- A write does not go past the room of the mirror, unless the file is promoted by it. -/
def InRoom (room : ℕ) (f : OpenGuestFile) (stop : ℕ) : Prop :=
  f.guestSlotIndex ≠ none → stop ≤ room ∨ (f.hostPath ≠ none ∧ BUFFER_SIZE_THRESHOLD < stop)

theorem store_off {a n : ℕ} {bs : List UInt8} (h : m.store a bs = some m') (hoff : OffRegion R a n)
    (hle : bs.length ≤ n) : AgreeOff Rᶜ m' m := by
  obtain ⟨rfl, -⟩ := store_eq_some h
  exact .put_left _ fun x h1 h2 => hoff x h1 (by omega)

theorem writeGuestU32_off {ptr v : ℕ} (h : writeGuestU32 m ptr v = some m')
    (hoff : OffRegion R ptr 4) : AgreeOff Rᶜ m' m := by
  rw [writeGuestU32] at h
  split at h
  · rw [Option.some.inj h]
  · exact store_off h hoff (length_toLe ..).le

theorem Placed.setLastError (h : Placed cfg R room handle m s) (n : ℕ) :
    Placed cfg R room handle m { s with lastError := n } :=
  h.frame (.refl _ _) rfl rfl

theorem Placed.readStreaming (h : Placed cfg R room handle m s)
    (hf : s.openFiles.lookup handle = some f) (hoff : HostOff R regs .readFile) :
    Leaves (Placed cfg R room handle) (readStreaming ⟨regs, m⟩ s handle f) := by
  rw [Wie.readStreaming]
  cases hp : f.hostPath with
  | none => exact .returned (h.setLastError _) _
  | some hostPath =>
    dsimp only
    split
    · exact .error
    have hle : ((hostReadAt s.host hostPath f.cursor regs.r8).getD []).length ≤ regs.r8 := by
      rw [hostReadAt]
      cases s.host hostPath with
      | none => exact Nat.zero_le _
      | some c => exact (length_readAt ..).trans_le (Nat.min_le_left _ _)
    generalize (hostReadAt s.host hostPath f.cursor regs.r8).getD [] = data at hle
    cases hst : m.store regs.rdx data with
    | none => exact .error
    | some m₁ =>
      dsimp only
      have h₁ := @Placed.frame _ _ _ _ _ m₁ _ (s.setFile handle _)
        (h.setCursor hf (satAdd f.cursor data.length)) (store_off hst hoff.2 hle) rfl rfl
      generalize (if data.length < 2 ^ 32 then data.length else 0) = count
      cases hw : writeGuestU32 m₁ regs.r9 count with
      | none => exact .error
      | some m₂ =>
        have h₂ : Placed cfg R room handle m₂
            { s.setFile handle (f.withCursor (satAdd f.cursor data.length)) with lastError := 0 } :=
          h₁.frame (writeGuestU32_off hw hoff.1) rfl rfl
        exact .returned h₂ _

theorem Placed.readBuffered (h : Placed cfg R room handle m s)
    (hf : s.openFiles.lookup handle = some f) (hoff : HostOff R regs .readFile) :
    Leaves (Placed cfg R room handle) (readBuffered ⟨regs, m⟩ s handle f) := by
  rw [Wie.readBuffered]
  dsimp only
  cases checkedAdd f.cursor (min regs.r8 (f.bytes.length - f.cursor)) with
  | none => exact .error
  | some stop =>
    dsimp only
    split
    · exact .error
    have hle : (readAt f.bytes f.cursor (min regs.r8 (f.bytes.length - f.cursor))).length ≤
        regs.r8 := by
      rw [length_readAt]
      omega
    generalize readAt f.bytes f.cursor (min regs.r8 (f.bytes.length - f.cursor)) = data at hle
    cases hst : m.store regs.rdx data with
    | none => exact .error
    | some m₁ =>
      dsimp only
      split
      · exact .error
      have h₁ := @Placed.frame _ _ _ _ _ m₁ _ (s.setFile handle _) (h.setCursor hf stop)
        (store_off hst hoff.2 hle) rfl rfl
      cases hw : writeGuestU32 m₁ regs.r9 data.length with
      | none => exact .error
      | some m₂ =>
        have h₂ : Placed cfg R room handle m₂
            { s.setFile handle (f.withCursor stop) with lastError := 0 } :=
          h₁.frame (writeGuestU32_off hw hoff.1) rfl rfl
        exact .returned h₂.sync _

/-- **`ReadFile`** keeps a file in its place. -/
theorem Placed.handleReadFile (h : Placed cfg R room regs.rcx m s)
    (hoff : HostOff R regs .readFile) :
    Leaves (Placed cfg R room regs.rcx) (handleReadFile ⟨regs, m⟩ s) := by
  rw [Wie.handleReadFile]
  dsimp only
  cases hw : writeGuestU32 m regs.r9 0 with
  | none => exact .error
  | some m₁ =>
    dsimp only
    have h₁ : Placed cfg R room regs.rcx m₁ s := h.frame (writeGuestU32_off hw hoff.1) rfl rfl
    split
    · exact .returned (h₁.setLastError _) _
    have h₂ := h₁.syncCursor
    generalize syncHostCursorFromGuest m₁ s regs.rcx = s₁ at h₂ ⊢
    cases hf : s₁.openFiles.lookup regs.rcx with
    | none => exact .returned (h₂.setLastError _) _
    | some f =>
      dsimp only
      split
      · exact h₂.readStreaming hf hoff
      · exact h₂.readBuffered hf hoff

/-- **A write** keeps a file in its place. -/
theorem Placed.writeOpenFile (h : Placed cfg R room handle m s)
    (hf : s.openFiles.lookup handle = some f) {data : List UInt8}
    (hroom : InRoom room f (f.cursor + data.length)) {m₁ : Flat} {s₁ : FileState}
    (hw : writeOpenFile m s handle f data = (.ok (), m₁, s₁)) : Placed cfg R room handle m₁ s₁ := by
  rw [Wie.writeOpenFile] at hw
  split at hw
  · cases hp : f.hostPath with
    | none =>
      rw [hp] at hw
      cases hw
    | some hostPath =>
      rw [hp] at hw
      dsimp only at hw
      cases hc : checkedAdd f.cursor data.length with
      | none =>
        rw [hc] at hw
        cases hw
      | some c =>
        rw [hc] at hw
        cases hw
        have h₁ : Placed cfg R room handle m (s.hostWriteAt hostPath f.cursor data) :=
          h.frame (.refl _ _) rfl rfl
        exact h₁.setCursor hf c
  · rename_i hs
    replace hs : f.streaming = false := Bool.eq_false_iff.mpr hs
    cases hb : writeBuffered f.bytes f.cursor data with
    | none =>
      rw [hb] at hw
      cases hw
    | some bytes =>
      rw [hb] at hw
      cases hw
      have hlen := (length_writeBuffered hb).1
      have hplaced : (f.guestSlotIndex ≠ none → f.bytes.length ≤ room → bytes.length ≤ room) →
          Placed cfg R room handle m (s.setFile handle
            ((f.withBytes bytes).withCursor (f.cursor + data.length))) := fun hfits =>
        h.congr (fun _ _ _ _ => rfl) rfl rfl fun f' hf' => by
          rw [FileState.lookup_setFile, if_pos rfl] at hf'
          obtain rfl := Option.some.inj hf'
          exact ⟨f, hf, rfl, rfl, rfl, hfits⟩
      rw [maybePromote, FileState.lookup_setFile, if_pos rfl]
      dsimp only
      split
      · rename_i hsmall
        refine hplaced fun hn hle => ?_
        rcases hroom hn with hstop | ⟨-, hbig⟩
        · omega
        · have : bytes.length ≤ BUFFER_SIZE_THRESHOLD := hsmall
          omega
      · cases hp : f.hostPath with
        | some hostPath => exact h.promoted hf hs hp
        | none =>
          rw [promote_of_none (AList.lookup_insert _)
            (show ((f.withBytes bytes).withCursor (f.cursor + data.length)).hostPath = none
              from hp)]
          refine hplaced fun hn hle => ?_
          rcases hroom hn with hstop | ⟨hhost, -⟩
          · omega
          · exact absurd hp hhost

/-- **`WriteFile`** keeps a file in its place. -/
theorem Placed.handleWriteFile (h : Placed cfg R room regs.rcx m s)
    (hoff : HostOff R regs .writeFile)
    (hroom : ∀ f, s.openFiles.lookup regs.rcx = some f → regs.rdx ≠ 0 →
      InRoom room f (f.cursor + regs.r8)) :
    Leaves (Placed cfg R room regs.rcx) (handleWriteFile ⟨regs, m⟩ s) := by
  rw [Wie.handleWriteFile]
  dsimp only
  cases hw : writeGuestU32 m regs.r9 0 with
  | none => exact .error
  | some m₁ =>
    dsimp only
    have h₁ : Placed cfg R room regs.rcx m₁ s := h.frame (writeGuestU32_off hw hoff.1) rfl rfl
    split
    · exact .returned (h₁.setLastError _) _
    rename_i hne
    cases hf : s.openFiles.lookup regs.rcx with
    | none => exact .returned (h₁.setLastError _) _
    | some f =>
      dsimp only
      cases hload : m₁.load regs.rdx regs.r8 with
      | none => exact .error
      | some data =>
        have hlen := length_of_load hload
        dsimp only
        cases hwr : Wie.writeOpenFile m₁ s regs.rcx f data with
        | mk o r =>
          obtain ⟨m₂, s₂⟩ := r
          cases o with
          | error _ => exact .error
          | ok _ =>
            have h₂ := h₁.writeOpenFile hf (by rw [hlen]; exact hroom f hf hne) hwr
            dsimp only
            split
            · exact .error
            cases hw₂ : writeGuestU32 m₂ regs.r9 regs.r8 with
            | none => exact .error
            | some m₃ =>
              have h₃ : Placed cfg R room regs.rcx m₃ { s₂ with lastError := 0 } :=
                h₂.frame (writeGuestU32_off hw₂ hoff.1) rfl rfl
              exact .returned h₃ _

/-- **`SetFilePointer`** keeps a file in its place. -/
theorem Placed.handleSetFilePointer (h : Placed cfg R room regs.rcx m s)
    (hoff : HostOff R regs .setFilePointer) :
    Leaves (Placed cfg R room regs.rcx) (handleSetFilePointer ⟨regs, m⟩ s) := by
  rw [Wie.handleSetFilePointer]
  dsimp only
  cases hf : s.openFiles.lookup regs.rcx with
  | none => exact .returned (h.setLastError _) _
  | some f =>
    dsimp only
    split
    · exact .returned (h.setLastError _) _
    cases seekTarget (f.size s.host) f.cursor regs.rdx regs.r9 with
    | none => exact .error
    | some target =>
      cases target with
      | none => exact .returned (h.setLastError _) _
      | some c =>
        dsimp only
        cases hw : writeGuestU32 m regs.r8 (c / 2 ^ 32) with
        | none => exact .error
        | some m₁ =>
          have h₁ : Placed cfg R room regs.rcx m₁
              { s.setFile regs.rcx (f.withCursor c) with lastError := 0 } :=
            (h.setCursor hf c).frame (writeGuestU32_off hw hoff) rfl rfl
          exact .returned h₁.sync _

/-- **`GetFileSize`** keeps a file in its place. -/
theorem Placed.handleGetFileSize (h : Placed cfg R room regs.rcx m s)
    (hoff : HostOff R regs .getFileSize) :
    Leaves (Placed cfg R room regs.rcx) (handleGetFileSize ⟨regs, m⟩ s) := by
  rw [Wie.handleGetFileSize]
  dsimp only
  cases s.openFiles.lookup regs.rcx with
  | none => exact .returned (h.setLastError _) _
  | some f =>
    dsimp only
    cases hw : writeGuestU32 m regs.rdx (f.size s.host / 2 ^ 32) with
    | none => exact .error
    | some m₁ =>
      have h₁ : Placed cfg R room regs.rcx m₁ { s with lastError := 0 } :=
        h.frame (writeGuestU32_off hw hoff) rfl rfl
      exact .returned h₁ _

end Wie
