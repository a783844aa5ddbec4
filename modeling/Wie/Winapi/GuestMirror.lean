import Wie.Lib.Reach
import Wie.Winapi.GuestTable

/-!
# Mirrors of open files

The mirror of a file is laid out when the file is registered, with the size it has then, after the
mirrors before it. It is copied whole when the host has changed something.

## Main definitions

* `MirrorRun` — memory and files, with the size reserved for each mirror as a history
* `StaysInMirror` — files do not grow past their mirrors

## Main results

* `mirrors_apart` — mirrors of files that stay in them are apart
* `not_mirrors_apart` — a file that grew over the mirror of another
-/

namespace Wie

open Flat

/-- Memory and files, with the size reserved for the mirror of each file. -/
structure MirrorRun where
  /-- Guest memory. -/
  mem : Flat
  /-- Files. -/
  files : FileState
  /-- Bytes reserved, by handle. -/
  reserved : ℕ → ℕ

/-- What can happen. -/
inductive MirrorAction
  /-- A file is opened. -/
  | openFile (path : String) (bytes : List UInt8) (hostPath : Option String) (forceStream : Bool)
  /-- A file is registered. -/
  | register (handle : ℕ)
  /-- A file is unregistered. -/
  | unregister (handle : ℕ)
  /-- A file is written to. -/
  | write (handle : ℕ) (data : List UInt8)
  /-- A file is copied to the guest. -/
  | sync (handle : ℕ)
  /-- Memory changes elsewhere. -/
  | other (mem : Flat)

namespace MirrorRun

/-- The state after an action. -/
def next (isMain : String → Bool) (r : MirrorRun) : MirrorAction → MirrorRun
  | .openFile path bytes hostPath forceStream =>
    match allocateOpenFileEx isMain r.files path bytes hostPath forceStream with
    | none => r
    | some (_, files) => { r with files := files }
  | .register handle =>
    let q := (registerOpenFile r.mem r.files handle).2
    { mem := q.1
      files := q.2
      reserved := Function.update r.reserved handle
        (q.2.guestFileDataNext - r.files.guestFileDataNext) }
  | .unregister handle =>
    let q := unregisterOpenFile r.mem r.files handle
    { r with mem := q.1, files := q.2 }
  | .write handle data =>
    match r.files.openFiles.lookup handle with
    | none => r
    | some f =>
      let q := (writeOpenFile r.mem r.files handle f data).2
      { r with mem := q.1, files := q.2 }
  | .sync handle => { r with mem := syncSlotFromHost r.mem r.files handle }
  | .other mem => { r with mem := mem }

end MirrorRun

/-- The file is registered at an address. -/
def MirroredAt (s : FileState) (handle va : ℕ) (f : OpenGuestFile) : Prop :=
  s.openFiles.lookup handle = some f ∧ f.guestDataVa = some va

/-- A file that is open but not registered has neither slot nor mirror. -/
def OpenGuestFile.Unregistered (f : OpenGuestFile) : Prop :=
  f.guestSlotIndex = none ∧ f.guestDataVa = none

/-- A registered file: its slot has its handle, and its mirror was reserved. -/
structure Registered (cfg : GuestIoConfig) (r : MirrorRun) (handle : ℕ) (f : OpenGuestFile)
    (i va : ℕ) : Prop where
  /-- Its slot. -/
  index : f.guestSlotIndex = some i
  /-- Its mirror. -/
  dataVa : f.guestDataVa = some va
  /-- The slot is in the table. -/
  lt : i < GUEST_IO_MAX_SLOTS
  /-- The slot has the handle. -/
  slot : slotField r.mem cfg.tableVa i 0 = handle
  /-- The mirror is in the arena. -/
  base : cfg.fileDataBase ≤ va
  /-- The content fits. -/
  fits : f.bytes.length ≤ r.reserved handle
  /-- It was reserved. -/
  reserved : va + r.reserved handle ≤ r.files.guestFileDataNext

/-- The table and the arena are in place, slots have the handles of registered files, and the ranges
reserved for mirrors are apart. -/
structure MirrorInv (cfg : GuestIoConfig) (r : MirrorRun) : Prop where
  /-- The configuration. -/
  io : r.files.guestIo = some cfg
  /-- The table. -/
  table : TableAt r.mem cfg.tableVa
  /-- The arena. -/
  arena : cfg.fileDataBase + cfg.fileDataSize < 2 ^ 64
  /-- They are apart. -/
  apartTable : cfg.tableVa + GUEST_IO_MAX_SLOTS * GUEST_IO_SLOT_SIZE ≤ cfg.fileDataBase ∨
    cfg.fileDataBase + cfg.fileDataSize ≤ cfg.tableVa
  /-- The next mirror is in the arena. -/
  next : cfg.fileDataBase ≤ r.files.guestFileDataNext ∧
    r.files.guestFileDataNext ≤ cfg.fileDataBase + cfg.fileDataSize
  /-- Handles are numbers of 64 bits that were given out. -/
  handles : r.files.nextFileHandle < 2 ^ 64 ∧ 0 < r.files.nextFileHandle ∧
    ∀ h f, r.files.openFiles.lookup h = some f → 0 < h ∧ h < r.files.nextFileHandle
  /-- No buffer is larger. -/
  size : ∀ h f, r.files.openFiles.lookup h = some f → f.bytes.length < 2 ^ 63
  /-- Slots are free, or have the handle of a file. -/
  slots : ∀ i, i < GUEST_IO_MAX_SLOTS →
    (slotField r.mem cfg.tableVa i 0 = 0 ∧ slotField r.mem cfg.tableVa i 32 = 0) ∨
    ∃ f, r.files.openFiles.lookup (slotField r.mem cfg.tableVa i 0) = some f ∧
      f.guestSlotIndex = some i
  /-- Files are unregistered or registered. -/
  files : ∀ h f, r.files.openFiles.lookup h = some f →
    f.Unregistered ∨ ∃ i va, Registered cfg r h f i va
  /-- Reserved ranges are apart. -/
  apart : ∀ h h' f f' va va', h ≠ h' → MirroredAt r.files h va f → MirroredAt r.files h' va' f' →
    va + r.reserved h ≤ va' ∨ va' + r.reserved h' ≤ va

/-- Files do not grow past their mirrors, unless they are promoted at once, and are not registered
twice. -/
def StaysInMirror (r : MirrorRun) : MirrorAction → Prop
  | .register handle => ∀ f, r.files.openFiles.lookup handle = some f → f.guestSlotIndex = none
  | .write handle data => ∀ f, r.files.openFiles.lookup handle = some f →
    f.guestSlotIndex ≠ none → f.cursor + data.length ≤ r.reserved handle ∨
      (f.hostPath ≠ none ∧ BUFFER_SIZE_THRESHOLD < f.cursor + data.length)
  | _ => True

/-- Files are opened with buffers that exist, and memory elsewhere is not the table. -/
def MirrorEnv (r : MirrorRun) : MirrorAction → Prop
  | .openFile _ bytes _ _ => bytes.length < 2 ^ 63
  | .other mem => mem.writable = r.mem.writable ∧ ∀ cfg, r.files.guestIo = some cfg →
    ∀ x, cfg.tableVa ≤ x → x < cfg.tableVa + GUEST_IO_MAX_SLOTS * GUEST_IO_SLOT_SIZE →
      mem.byte x = r.mem.byte x
  | _ => True

variable {cfg : GuestIoConfig} {r : MirrorRun} {m m' : Flat} {h i : ℕ} {f f' : OpenGuestFile}

/-! ### Steps that move nothing -/

/-- The fields of a slot stay when its bytes do. -/
theorem slotField_congr {tableVa k : ℕ} (hk : k ≤ 32)
    (hb : ∀ x, slotAddr tableVa i ≤ x → x < slotAddr tableVa i + 40 → m'.byte x = m.byte x) :
    slotField m' tableVa i k = slotField m tableVa i k :=
  get_congr fun x h1 h2 => hb x (by omega) (by omega)

/-- Memory changes, but no handle and no flag in the table does. -/
theorem MirrorInv.setMem (hi : MirrorInv cfg r) (hw : m'.writable = r.mem.writable)
    (hfield : ∀ i, i < GUEST_IO_MAX_SLOTS → ∀ k, k = 0 ∨ k = 32 →
      slotField m' cfg.tableVa i k = slotField r.mem cfg.tableVa i k) :
    MirrorInv cfg { r with mem := m' } where
  io := hi.io
  table := hi.table.congr hw
  arena := hi.arena
  apartTable := hi.apartTable
  next := hi.next
  handles := hi.handles
  size := hi.size
  slots i hlt := by
    show (slotField m' _ _ _ = 0 ∧ slotField m' _ _ _ = 0) ∨ _
    rw [hfield i hlt 0 (.inl rfl), hfield i hlt 32 (.inr rfl)]
    exact hi.slots i hlt
  files h f hf := by
    refine (hi.files h f hf).imp_right fun ⟨i, va, hr⟩ => ⟨i, va, ⟨hr.index, hr.dataVa, hr.lt, ?_,
      hr.base, hr.fits, hr.reserved⟩⟩
    exact (hfield i hr.lt 0 (.inl rfl)).trans hr.slot
  apart := hi.apart

/-- Memory changes off the table. -/
theorem MirrorInv.setMem_off (hi : MirrorInv cfg r) (hw : m'.writable = r.mem.writable)
    (hb : ∀ x, cfg.tableVa ≤ x → x < cfg.tableVa + GUEST_IO_MAX_SLOTS * GUEST_IO_SLOT_SIZE →
      m'.byte x = r.mem.byte x) : MirrorInv cfg { r with mem := m' } :=
  hi.setMem hw fun i hlt k hk => by
    have hbd := slotAddr_bounds cfg.tableVa hlt
    exact slotField_congr (by omega) fun x h1 h2 => hb x (by omega) (by omega)

theorem MirrorInv.fits (hi : MirrorInv cfg r) (hf : r.files.openFiles.lookup h = some f)
    (hn : f.guestSlotIndex ≠ none) : f.bytes.length ≤ r.reserved h := by
  rcases hi.files h f hf with hun | ⟨i, va, hr⟩
  · exact absurd hun.1 hn
  · exact hr.fits

/-- A file changes, but neither its slot nor its mirror does, and its content still fits. -/
theorem MirrorInv.setFile (hi : MirrorInv cfg r) {s : FileState}
    (hf : r.files.openFiles.lookup h = some f)
    (hs : ∀ k, s.openFiles.lookup k = if k = h then some f' else r.files.openFiles.lookup k)
    (hio : s.guestIo = r.files.guestIo) (hnext : s.guestFileDataNext = r.files.guestFileDataNext)
    (hhandle : s.nextFileHandle = r.files.nextFileHandle)
    (hidx : f'.guestSlotIndex = f.guestSlotIndex) (hva : f'.guestDataVa = f.guestDataVa)
    (hsize : f'.bytes.length < 2 ^ 63)
    (hfits : f.guestSlotIndex ≠ none → f'.bytes.length ≤ r.reserved h) :
    MirrorInv cfg { r with files := s } := by
  have hlookup : ∀ k g, s.openFiles.lookup k = some g →
      ∃ g', r.files.openFiles.lookup k = some g' ∧ g.guestSlotIndex = g'.guestSlotIndex ∧
        g.guestDataVa = g'.guestDataVa ∧ g.bytes.length < 2 ^ 63 ∧
        (g'.guestSlotIndex ≠ none → g.bytes.length ≤ r.reserved k) := by
    intro k g hg
    rw [hs] at hg
    by_cases hk : k = h
    · subst hk
      rw [if_pos rfl] at hg
      obtain rfl := Option.some.inj hg
      exact ⟨f, hf, hidx, hva, hsize, hfits⟩
    · rw [if_neg hk] at hg
      exact ⟨g, hg, rfl, rfl, hi.size k g hg, hi.fits hg⟩
  refine ⟨hio.trans hi.io, hi.table, hi.arena, hi.apartTable, ?_, ?_, fun k g hg => ?_,
    fun i hlt => ?_, fun k g hg => ?_, fun k k' g g' va va' hne hg hg' => ?_⟩
  · rw [hnext]
    exact hi.next
  · rw [hhandle]
    refine ⟨hi.handles.1, hi.handles.2.1, fun k g hg => ?_⟩
    obtain ⟨g', hg', -⟩ := hlookup k g hg
    exact hi.handles.2.2 k g' hg'
  · exact (hlookup k g hg).choose_spec.2.2.2.1
  · refine (hi.slots i hlt).imp_right fun ⟨g, hg, hgi⟩ => ?_
    by_cases hk : slotField r.mem cfg.tableVa i 0 = h
    · rw [hk] at hg ⊢
      rw [hs, if_pos rfl]
      obtain rfl := Option.some.inj (hg.symm.trans hf)
      exact ⟨f', rfl, hidx.trans hgi⟩
    · rw [hs, if_neg hk]
      exact ⟨g, hg, hgi⟩
  · obtain ⟨g', hg', hgi, hgva, -, hgfits⟩ := hlookup k g hg
    rcases hi.files k g' hg' with hun | ⟨i, va, hr⟩
    · exact .inl ⟨hgi.trans hun.1, hgva.trans hun.2⟩
    · refine .inr ⟨i, va, hgi.trans hr.index, hgva.trans hr.dataVa, hr.lt, hr.slot, hr.base,
        hgfits (by rw [hr.index]; nofun), ?_⟩
      rw [hnext]
      exact hr.reserved
  · obtain ⟨g₁, hg₁, -, hva₁, -⟩ := hlookup k g hg.1
    obtain ⟨g₂, hg₂, -, hva₂, -⟩ := hlookup k' g' hg'.1
    exact hi.apart k k' g₁ g₂ va va' hne ⟨hg₁, hva₁.symm.trans hg.2⟩ ⟨hg₂, hva₂.symm.trans hg'.2⟩

/-! ### Unregistering -/

/-- A file that is not registered has no slot. -/
theorem MirrorInv.slot_ne (hi : MirrorInv cfg r) (hf : r.files.openFiles.lookup h = some f)
    (hun : f.Unregistered) (hlt : i < GUEST_IO_MAX_SLOTS) :
    slotField r.mem cfg.tableVa i 0 ≠ h := by
  intro he
  rcases hi.slots i hlt with ⟨h0, -⟩ | ⟨g, hg, hgi⟩
  · have := (hi.handles.2.2 h f hf).1
    omega
  · rw [he] at hg
    obtain rfl := Option.some.inj (hg.symm.trans hf)
    rw [hun.1] at hgi
    cases hgi

/-- Two slots do not have the handle of one file. -/
theorem MirrorInv.slot_unique (hi : MirrorInv cfg r) {j : ℕ} (hi' : i < GUEST_IO_MAX_SLOTS)
    (hj : j < GUEST_IO_MAX_SLOTS) (h0 : slotField r.mem cfg.tableVa i 0 ≠ 0)
    (he : slotField r.mem cfg.tableVa i 0 = slotField r.mem cfg.tableVa j 0) : i = j := by
  rcases hi.slots i hi' with ⟨hz, -⟩ | ⟨f, hf, hfi⟩
  · exact absurd hz h0
  rcases hi.slots j hj with ⟨hz, -⟩ | ⟨g, hg, hgj⟩
  · exact absurd (he.trans hz) h0
  rw [he] at hf
  obtain rfl := Option.some.inj (hf.symm.trans hg)
  exact Option.some.inj (hfi.symm.trans hgj)

/-- Clearing zeroes the slots that have the handle, and leaves the others. -/
theorem MirrorInv.clear_fields (hi : MirrorInv cfg r) (h0 : 0 < h)
    (hclear : clearSlot r.mem cfg.tableVa h (List.range GUEST_IO_MAX_SLOTS) = .ok m') :
    m'.writable = r.mem.writable ∧ ∀ i, i < GUEST_IO_MAX_SLOTS →
      (slotField r.mem cfg.tableVa i 0 = h ∧ slotField m' cfg.tableVa i 0 = 0 ∧
        slotField m' cfg.tableVa i 32 = 0) ∨
      (slotField r.mem cfg.tableVa i 0 ≠ h ∧ ∀ k, k ≤ 32 →
        slotField m' cfg.tableVa i k = slotField r.mem cfg.tableVa i k) := by
  rcases hi.table.clearSlot_spec h with ⟨hok, hall⟩ | ⟨j, hjlt, hfound, hok⟩
  · obtain rfl := Except.ok.inj (hok.symm.trans hclear)
    exact ⟨rfl, fun i hlt => .inr ⟨hall i hlt, fun _ _ => rfl⟩⟩
  · obtain rfl := Except.ok.inj (hok.symm.trans hclear)
    refine ⟨rfl, fun i hlt => ?_⟩
    by_cases he : slotField r.mem cfg.tableVa i 0 = h
    · obtain rfl := hi.slot_unique hlt hjlt (by omega) (he.trans hfound.symm)
      rw [GUEST_IO_SLOT_SIZE]
      exact .inl ⟨he, get_put_zeros (by omega) (by omega), get_put_zeros (by omega) (by omega)⟩
    · have hne : i ≠ j := by
        rintro rfl
        exact he hfound
      have hapart := slotAddr_apart cfg.tableVa hne
      refine .inr ⟨he, fun k hk => slotField_congr hk fun x h1 h2 => byte_put_of_notMem ?_⟩
      rw [List.length_replicate, GUEST_IO_SLOT_SIZE]
      omega

/-- **A file loses its slot and its mirror.** -/
theorem MirrorInv.drop (hi : MirrorInv cfg r) {s : FileState}
    (hf : r.files.openFiles.lookup h = some f)
    (hs : ∀ k, s.openFiles.lookup k = if k = h then some f' else r.files.openFiles.lookup k)
    (hio : s.guestIo = r.files.guestIo) (hnext : s.guestFileDataNext = r.files.guestFileDataNext)
    (hhandle : s.nextFileHandle = r.files.nextFileHandle) (hun : f'.Unregistered)
    (hsize : f'.bytes.length < 2 ^ 63) (hclear : clearSlot r.mem cfg.tableVa h
      (List.range GUEST_IO_MAX_SLOTS) = .ok m') : MirrorInv cfg ⟨m', s, r.reserved⟩ := by
  have h0 := (hi.handles.2.2 h f hf).1
  obtain ⟨hw, hfields⟩ := hi.clear_fields h0 hclear
  have hother : ∀ k g, k ≠ h → (s.openFiles.lookup k = some g ↔
      r.files.openFiles.lookup k = some g) := fun k g hk => by rw [hs, if_neg hk]
  have hself : ∀ g, s.openFiles.lookup h = some g → g = f' := fun g hg => by
    rw [hs, if_pos rfl] at hg
    exact (Option.some.inj hg).symm
  refine ⟨hio.trans hi.io, hi.table.congr hw, hi.arena, hi.apartTable, ?_, ?_, fun k g hg => ?_,
    fun i hlt => ?_, fun k g hg => ?_, fun k k' g g' va va' hne hg hg' => ?_⟩
  · rw [hnext]
    exact hi.next
  · rw [hhandle]
    refine ⟨hi.handles.1, hi.handles.2.1, fun k g hg => ?_⟩
    by_cases hk : k = h
    · subst hk
      exact hi.handles.2.2 k f hf
    · exact hi.handles.2.2 k g ((hother k g hk).mp hg)
  · by_cases hk : k = h
    · subst hk
      rwa [hself g hg]
    · exact hi.size k g ((hother k g hk).mp hg)
  · rcases hfields i hlt with ⟨-, hz⟩ | ⟨hne, hsame⟩
    · exact .inl hz
    · show (slotField m' _ _ _ = 0 ∧ slotField m' _ _ _ = 0) ∨
        ∃ g, s.openFiles.lookup (slotField m' _ _ _) = some g ∧ _
      rw [hsame 0 (by decide), hsame 32 (by decide)]
      exact (hi.slots i hlt).imp_right fun ⟨g, hg, hgi⟩ => ⟨g, (hother _ g hne).mpr hg, hgi⟩
  · by_cases hk : k = h
    · subst hk
      rw [hself g hg]
      exact .inl hun
    · refine (hi.files k g ((hother k g hk).mp hg)).imp_right fun ⟨i, va, hr⟩ => ⟨i, va, hr.index,
        hr.dataVa, hr.lt, ?_, hr.base, hr.fits, ?_⟩
      · rcases hfields i hr.lt with ⟨he, -⟩ | ⟨-, hsame⟩
        · exact absurd (hr.slot.symm.trans he) hk
        · exact (hsame 0 (by decide)).trans hr.slot
      · show va + r.reserved k ≤ s.guestFileDataNext
        rw [hnext]
        exact hr.reserved
  · have hk : k ≠ h := by
      rintro rfl
      have hva := hg.2
      rw [hself g hg.1, hun.2] at hva
      cases hva
    have hk' : k' ≠ h := by
      rintro rfl
      have hva := hg'.2
      rw [hself g' hg'.1, hun.2] at hva
      cases hva
    exact hi.apart k k' g g' va va' hne ⟨(hother k g hk).mp hg.1, hg.2⟩
      ⟨(hother k' g' hk').mp hg'.1, hg'.2⟩

theorem MirrorInv.clearSlot_ok (hi : MirrorInv cfg r) (h : ℕ) :
    ∃ m', clearSlot r.mem cfg.tableVa h (List.range GUEST_IO_MAX_SLOTS) = .ok m' := by
  rcases hi.table.clearSlot_spec h with ⟨hok, -⟩ | ⟨j, -, -, hok⟩
  · exact ⟨_, hok⟩
  · exact ⟨_, hok⟩

/-- Clearing for a handle that has no file changes no field. -/
theorem MirrorInv.clear_unknown (hi : MirrorInv cfg r) (hf : r.files.openFiles.lookup h = none)
    (hclear : clearSlot r.mem cfg.tableVa h (List.range GUEST_IO_MAX_SLOTS) = .ok m') :
    MirrorInv cfg { r with mem := m' } := by
  rcases hi.table.clearSlot_spec h with ⟨hok, -⟩ | ⟨j, hjlt, hfound, hok⟩
  · obtain rfl := Except.ok.inj (hok.symm.trans hclear)
    exact hi
  · obtain rfl := Except.ok.inj (hok.symm.trans hclear)
    rcases hi.slots j hjlt with ⟨hz, hz'⟩ | ⟨g, hg, -⟩
    · refine hi.setMem rfl fun i hlt k hk => ?_
      by_cases hij : i = j
      · subst hij
        have h0 : slotField (r.mem.put (slotAddr cfg.tableVa i)
            (List.replicate GUEST_IO_SLOT_SIZE 0)) cfg.tableVa i k = 0 := by
          rw [GUEST_IO_SLOT_SIZE]
          exact get_put_zeros (by omega) (by omega)
        rw [h0]
        rcases hk with rfl | rfl
        · exact hz.symm
        · exact hz'.symm
      · have hapart := slotAddr_apart cfg.tableVa hij
        refine slotField_congr (by omega) fun x h1 h2 => byte_put_of_notMem ?_
        rw [List.length_replicate, GUEST_IO_SLOT_SIZE]
        omega
    · rw [hfound, hf] at hg
      cases hg

/-- **Unregistering** keeps mirrors apart. -/
theorem MirrorInv.unregister (hi : MirrorInv cfg r) (isMain : String → Bool) (h : ℕ) :
    MirrorInv cfg (r.next isMain (.unregister h)) := by
  obtain ⟨m', hclear⟩ := hi.clearSlot_ok h
  rw [MirrorRun.next, unregisterOpenFile, hi.io]
  dsimp only
  rw [hclear]
  dsimp only
  cases hf : r.files.openFiles.lookup h with
  | none => exact hi.clear_unknown hf hclear
  | some f =>
    exact hi.drop hf (r.files.lookup_setFile h · _) rfl rfl rfl ⟨rfl, rfl⟩ (hi.size h f hf) hclear

/-- **Promotion** is unregistering, and keeps mirrors apart whatever was written before. -/
theorem MirrorInv.promote (hi : MirrorInv cfg r) (hf : r.files.openFiles.lookup h = some f)
    (hs : f'.streaming = false) (hp : f'.hostPath ≠ none) :
    MirrorInv cfg ⟨(promote r.mem (r.files.setFile h f') h).1,
      (promote r.mem (r.files.setFile h f') h).2, r.reserved⟩ := by
  obtain ⟨m', hclear⟩ := hi.clearSlot_ok h
  obtain ⟨path, hpath⟩ := Option.ne_none_iff_exists'.mp hp
  have hlook : (r.files.setFile h f').openFiles.lookup h = some f' := AList.lookup_insert _
  rw [Wie.promote, hlook]
  dsimp only
  rw [hs, hpath]
  dsimp only
  have hs₀ : ∀ k, ((r.files.setFile h f').setHost path f'.bytes).openFiles.lookup k =
      if k = h then some f' else r.files.openFiles.lookup k := (r.files.lookup_setFile h · f')
  rw [unregisterOpenFile]
  rw [show ((r.files.setFile h f').setHost path f'.bytes).guestIo = some cfg from hi.io]
  dsimp only
  rw [hclear]
  dsimp only
  rw [hs₀, if_pos rfl]
  dsimp only
  have hs₁ := FileState.lookup_setFile_of hs₀
    { f' with guestDataVa := none, guestSlotIndex := none }
  rw [hs₁, if_pos rfl]
  exact hi.drop hf (FileState.lookup_setFile_of hs₁ _) rfl rfl rfl ⟨rfl, rfl⟩
    (by decide : 0 < 2 ^ 63) hclear

/-! ### The other steps -/

/-- **Writing** keeps mirrors apart, when the content stays in its mirror or the file is promoted.
-/
theorem MirrorInv.write (hi : MirrorInv cfg r) (isMain : String → Bool) {data : List UInt8}
    (hg : StaysInMirror r (.write h data)) : MirrorInv cfg (r.next isMain (.write h data)) := by
  rw [MirrorRun.next]
  cases hf : r.files.openFiles.lookup h with
  | none => exact hi
  | some f =>
    have hkeep : ∀ k, r.files.openFiles.lookup k = if k = h then some f else
        r.files.openFiles.lookup k := fun k => by
      split
      · rename_i hk
        rw [hk, hf]
      · rfl
    have hsize := hi.size h f hf
    dsimp only
    rw [writeOpenFile]
    cases hs : f.streaming with
    | true =>
      rw [if_pos rfl]
      cases hp : f.hostPath with
      | none => exact hi
      | some path =>
        dsimp only
        cases hcheck : checkedAdd f.cursor data.length with
        | none => exact hi.setFile hf hkeep rfl rfl rfl rfl rfl hsize (hi.fits hf)
        | some cursor =>
          have hs := FileState.lookup_setFile_of hkeep (f.withCursor cursor)
          exact hi.setFile hf hs rfl rfl rfl rfl rfl hsize (hi.fits hf)
    | false =>
      rw [if_neg nofun]
      cases hw : writeBuffered f.bytes f.cursor data with
      | none => exact hi
      | some bytes =>
        obtain ⟨hlen, hlt⟩ := length_writeBuffered hw
        dsimp only
        generalize hg' : (f.withBytes bytes).withCursor (f.cursor + data.length) = g
        have hbytes : g.bytes = bytes := by rw [← hg']; rfl
        have hlook : (r.files.setFile h g).openFiles.lookup h = some g := AList.lookup_insert _
        have hstay : (f.guestSlotIndex ≠ none → bytes.length ≤ r.reserved h) →
            MirrorInv cfg ⟨r.mem, r.files.setFile h g, r.reserved⟩ := fun hfits => by
          subst hg'
          refine hi.setFile hf (FileState.lookup_setFile_of hkeep _) rfl rfl rfl rfl rfl ?_ hfits
          show bytes.length < 2 ^ 63
          omega
        rw [maybePromote, hlook]
        dsimp only
        rw [hbytes]
        split
        · rename_i hsmall
          refine hstay fun hn => ?_
          have hold := hi.fits hf hn
          rcases hg f hf hn with hfit | ⟨-, hbig⟩
          · omega
          · omega
        · by_cases hp : f.hostPath = none
          · have hpr : Wie.promote r.mem (r.files.setFile h g) h =
                (r.mem, r.files.setFile h g) := by
              rw [Wie.promote, hlook]
              dsimp only
              rw [show g.hostPath = none by rw [← hg']; exact hp]
              cases g.streaming <;> rfl
            rw [hpr]
            refine hstay fun hn => ?_
            have hold := hi.fits hf hn
            rcases hg f hf hn with hfit | ⟨hpath, -⟩
            · omega
            · exact absurd hp hpath
          · exact hi.promote hf (by rw [← hg']; exact hs) (by rw [← hg']; exact hp)

/-- **Copying to the guest** keeps mirrors apart, and changes only the slot and the mirror of the
file. -/
theorem MirrorInv.sync (hi : MirrorInv cfg r) (h : ℕ) :
    MirrorInv cfg { r with mem := syncSlotFromHost r.mem r.files h } ∧
    ∀ x, (∀ f i, r.files.openFiles.lookup h = some f → f.guestSlotIndex = some i →
        x < slotAddr cfg.tableVa i ∨ slotAddr cfg.tableVa i + 40 ≤ x) →
      (∀ f va, MirroredAt r.files h va f → x < va ∨ va + f.bytes.length ≤ x) →
        (syncSlotFromHost r.mem r.files h).byte x = r.mem.byte x := by
  have hsame : (r.files.slot h = none) → syncSlotFromHost r.mem r.files h = r.mem := fun hn => by
    rw [syncSlotFromHost, hn]
  cases hf : r.files.openFiles.lookup h with
  | none =>
    have hn : r.files.slot h = none := by rw [FileState.slot, hf]; rfl
    rw [hsame hn]
    exact ⟨hi, fun _ _ _ => rfl⟩
  | some f =>
    rcases hi.files h f hf with hun | ⟨i, va, hr⟩
    · have hn : r.files.slot h = none := by
        rw [slot_of_lookup hf, OpenGuestFile.slotVa, hun.1]
        rfl
      rw [hsame hn]
      exact ⟨hi, fun _ _ _ => rfl⟩
    · rw [hi.table.syncSlot_eq hi.io hf hr.index hr.lt]
      have hmirror : va + f.bytes.length ≤ cfg.fileDataBase + cfg.fileDataSize := by
        have h1 := hr.fits
        have h2 := hr.reserved
        have h3 := hi.next.2
        omega
      have hbase := hr.base
      have hsep := hi.apartTable
      refine ⟨hi.setMem (writable_synced ..) fun j hj k hk => ?_, fun x hslot hmir => ?_⟩
      · have hb := slotAddr_bounds cfg.tableVa hj
        refine get_congr fun x h1 h2 => byte_synced ?_ fun va' hva' => ?_
        · by_cases hij : j = i
          · subst hij
            omega
          · have := slotAddr_apart cfg.tableVa hij
            omega
        · obtain rfl := Option.some.inj (hr.dataVa.symm.trans hva')
          omega
      · have := hslot f i rfl hr.index
        exact byte_synced (by omega) fun va' hva' => hmir f va' ⟨hf, hva'⟩

/-- **Opening a file** keeps mirrors apart. -/
theorem MirrorInv.openFile (hi : MirrorInv cfg r) (isMain : String → Bool) {path : String}
    {bytes : List UInt8} {hostPath : Option String} {forceStream : Bool}
    (hb : bytes.length < 2 ^ 63) :
    MirrorInv cfg (r.next isMain (.openFile path bytes hostPath forceStream)) := by
  obtain ⟨hlt, hpos, hold⟩ := hi.handles
  rw [MirrorRun.next, allocateOpenFileEx]
  dsimp only
  cases hc : checkedAdd r.files.nextFileHandle 1 with
  | none => exact hi
  | some next =>
    obtain ⟨rfl, hnext⟩ := checkedAdd_eq_some.mp hc
    rw [Option.map_some]
    dsimp only
    generalize hstream : (forceStream || hostPath.isSome && _ && !isMain path) = streaming
    have hbytes : (if streaming then [] else bytes).length < 2 ^ 63 := by
      split
      · exact (by decide : 0 < 2 ^ 63)
      · exact hb
    generalize hg : OpenGuestFile.mk path (if streaming then [] else bytes) 0 hostPath streaming
      none none = g
    have hgsize : g.bytes.length < 2 ^ 63 := by rw [← hg]; exact hbytes
    have hgun : g.Unregistered := by rw [← hg]; exact ⟨rfl, rfl⟩
    have hlook := FileState.lookup_setFile
      { r.files with nextFileHandle := r.files.nextFileHandle + 1 } r.files.nextFileHandle
    have hfresh : ∀ k f, r.files.openFiles.lookup k = some f → k ≠ r.files.nextFileHandle :=
      fun k f hf => (hold k f hf).2.ne
    have hcases : ∀ k f, (FileState.setFile { r.files with
        nextFileHandle := r.files.nextFileHandle + 1 } r.files.nextFileHandle
        g).openFiles.lookup k = some f →
        (k = r.files.nextFileHandle ∧ f = g) ∨ r.files.openFiles.lookup k = some f := by
      intro k f hf
      rw [hlook] at hf
      by_cases hk : k = r.files.nextFileHandle
      · rw [if_pos hk] at hf
        exact .inl ⟨hk, (Option.some.inj hf).symm⟩
      · rw [if_neg hk] at hf
        exact .inr hf
    have hmirrored : ∀ k f va, MirroredAt (FileState.setFile { r.files with
        nextFileHandle := r.files.nextFileHandle + 1 } r.files.nextFileHandle g) k va f →
        MirroredAt r.files k va f := fun k f va hm => by
      rcases hcases k f hm.1 with ⟨-, rfl⟩ | hf
      · have hva := hm.2
        rw [hgun.2] at hva
        cases hva
      · exact ⟨hf, hm.2⟩
    refine ⟨hi.io, hi.table, hi.arena, hi.apartTable, hi.next,
      ⟨hnext, Nat.succ_pos _, fun k f hf => ?_⟩, fun k f hf => ?_, fun i hlt => (hi.slots i hlt).imp_right fun ⟨f, hf, hfi⟩ => ⟨f, ?_, hfi⟩,
      fun k f hf => ?_, fun k k' f f' va va' hne hf hf' =>
        hi.apart k k' f f' va va' hne (hmirrored k f va hf) (hmirrored k' f' va' hf')⟩
    · show 0 < k ∧ k < r.files.nextFileHandle + 1
      rcases hcases k f hf with ⟨rfl, -⟩ | hf
      · omega
      · have := hold k f hf
        omega
    · rcases hcases k f hf with ⟨-, rfl⟩ | hf
      · exact hgsize
      · exact hi.size k f hf
    · rcases hcases k f hf with ⟨-, rfl⟩ | hf
      · exact .inl hgun
      · exact (hi.files k f hf).imp_right fun ⟨i, va, hr⟩ =>
          ⟨i, va, hr.index, hr.dataVa, hr.lt, hr.slot, hr.base, hr.fits, hr.reserved⟩
    · exact (hlook _ g).trans ((if_neg (hfresh _ f hf)).trans hf)

/-- The history of a file that is not registered does not matter. -/
theorem MirrorInv.setReserved (hi : MirrorInv cfg r)
    (hun : ∀ f, r.files.openFiles.lookup h = some f → f.Unregistered) (v : ℕ) :
    MirrorInv cfg { r with reserved := Function.update r.reserved h v } := by
  have hne : ∀ k f va, MirroredAt r.files k va f → k ≠ h := fun k f va hm hk => by
    subst hk
    have hva := hm.2
    rw [(hun f hm.1).2] at hva
    cases hva
  refine ⟨hi.io, hi.table, hi.arena, hi.apartTable, hi.next, hi.handles, hi.size, hi.slots,
    fun k f hf => ?_, fun k k' f f' va va' hkk hf hf' => ?_⟩
  · refine (hi.files k f hf).imp_right fun ⟨i, va, hr⟩ => ?_
    have hk : Function.update r.reserved h v k = r.reserved k :=
      Function.update_of_ne (hne k f va ⟨hf, hr.dataVa⟩) ..
    refine ⟨i, va, hr.index, hr.dataVa, hr.lt, hr.slot, hr.base, ?_, ?_⟩
    · exact hr.fits.trans hk.ge
    · show va + Function.update r.reserved h v k ≤ r.files.guestFileDataNext
      rw [hk]
      exact hr.reserved
  · show va + Function.update r.reserved h v k ≤ va' ∨ va' + Function.update r.reserved h v k' ≤ va
    rw [Function.update_of_ne (hne k f va hf), Function.update_of_ne (hne k' f' va' hf')]
    exact hi.apart k k' f f' va va' hkk hf hf'

/-- A slot that was filled in has the handle. -/
theorem slotField_filled (m : Flat) (i tableVa dataVa size : ℕ) (hh : h < 2 ^ 64) :
    slotField (setAll [(slotAddr tableVa i, 8, h), (slotAddr tableVa i + 8, 8, dataVa),
      (slotAddr tableVa i + 16, 8, size), (slotAddr tableVa i + 24, 8, 0),
      (slotAddr tableVa i + 32, 8, GUEST_IO_FLAG_VALID)] m) tableVa i 0 = h := by
  show (((((m.set (slotAddr tableVa i) 8 h).set (slotAddr tableVa i + 8) 8 dataVa).set
    (slotAddr tableVa i + 16) 8 size).set (slotAddr tableVa i + 24) 8 0).set
    (slotAddr tableVa i + 32) 8 GUEST_IO_FLAG_VALID).get (slotAddr tableVa i + 0) 8 = h
  rw [get_set_of_disjoint (by omega), get_set_of_disjoint (by omega),
    get_set_of_disjoint (by omega), get_set_of_disjoint (by omega)]
  exact get_set_of_lt hh

/-- **A free slot is filled in** for a file, and the next bytes are reserved for its mirror. -/
theorem MirrorInv.fill (hi : MirrorInv cfg r) (hf : r.files.openFiles.lookup h = some f)
    (hun : f.Unregistered) (hlt : i < GUEST_IO_MAX_SLOTS)
    (hfree : slotField r.mem cfg.tableVa i 0 = 0) {aligned : ℕ} (hfits : f.bytes.length ≤ aligned)
    (htop : r.files.guestFileDataNext + aligned ≤ cfg.fileDataBase + cfg.fileDataSize) :
    MirrorInv cfg
      { mem := setAll [(slotAddr cfg.tableVa i, 8, h),
          (slotAddr cfg.tableVa i + 8, 8, r.files.guestFileDataNext),
          (slotAddr cfg.tableVa i + 16, 8, f.bytes.length), (slotAddr cfg.tableVa i + 24, 8, 0),
          (slotAddr cfg.tableVa i + 32, 8, GUEST_IO_FLAG_VALID)] r.mem
        files := (r.files.withDataNext (r.files.guestFileDataNext + aligned)).setFile h
          (f.withMirror r.files.guestFileDataNext i)
        reserved := Function.update r.reserved h aligned } := by
  obtain ⟨hpos, hlast⟩ := hi.handles.2.2 h f hf
  have hself := slotField_filled r.mem i cfg.tableVa r.files.guestFileDataNext f.bytes.length
    (hlast.trans hi.handles.1)
  have hothers : ∀ j, j ≠ i → ∀ k, k ≤ 32 → slotField (setAll [(slotAddr cfg.tableVa i, 8, h),
      (slotAddr cfg.tableVa i + 8, 8, r.files.guestFileDataNext),
      (slotAddr cfg.tableVa i + 16, 8, f.bytes.length), (slotAddr cfg.tableVa i + 24, 8, 0),
      (slotAddr cfg.tableVa i + 32, 8, GUEST_IO_FLAG_VALID)] r.mem) cfg.tableVa j k =
        slotField r.mem cfg.tableVa j k := fun j hj k hk => by
    have hapart := slotAddr_apart cfg.tableVa hj
    refine slotField_congr hk fun x h1 h2 => byte_setAll _ fun w hw => ?_
    simp only [List.mem_cons, List.not_mem_nil, or_false] at hw
    rcases hw with rfl | rfl | rfl | rfl | rfl <;> dsimp only <;> omega
  have hw := writable_setAll [(slotAddr cfg.tableVa i, 8, h),
    (slotAddr cfg.tableVa i + 8, 8, r.files.guestFileDataNext),
    (slotAddr cfg.tableVa i + 16, 8, f.bytes.length), (slotAddr cfg.tableVa i + 24, 8, 0),
    (slotAddr cfg.tableVa i + 32, 8, GUEST_IO_FLAG_VALID)] r.mem
  generalize setAll [(slotAddr cfg.tableVa i, 8, h),
      (slotAddr cfg.tableVa i + 8, 8, r.files.guestFileDataNext),
      (slotAddr cfg.tableVa i + 16, 8, f.bytes.length), (slotAddr cfg.tableVa i + 24, 8, 0),
      (slotAddr cfg.tableVa i + 32, 8, GUEST_IO_FLAG_VALID)] r.mem = m' at hself hothers hw ⊢
  generalize hg : f.withMirror r.files.guestFileDataNext i = g
  have hgi : g.guestSlotIndex = some i := by rw [← hg]; rfl
  have hgva : g.guestDataVa = some r.files.guestFileDataNext := by rw [← hg]; rfl
  have hgb : g.bytes = f.bytes := by rw [← hg]; rfl
  have hcases : ∀ k f', ((r.files.withDataNext (r.files.guestFileDataNext + aligned)).setFile h
      g).openFiles.lookup k = some f' →
      (k = h ∧ f' = g) ∨ (k ≠ h ∧ r.files.openFiles.lookup k = some f') := by
    intro k f' hf'
    rw [FileState.lookup_setFile] at hf'
    by_cases hk : k = h
    · rw [if_pos hk] at hf'
      exact .inl ⟨hk, (Option.some.inj hf').symm⟩
    · rw [if_neg hk] at hf'
      exact .inr ⟨hk, hf'⟩
  -- mirrors of other files end before the new one
  have hbelow : ∀ k f' va, k ≠ h → MirroredAt r.files k va f' →
      va + r.reserved k ≤ r.files.guestFileDataNext := fun k f' va _ hm => by
    rcases hi.files k f' hm.1 with hun' | ⟨j, va', hr⟩
    · have hva := hm.2
      rw [hun'.2] at hva
      cases hva
    · obtain rfl := Option.some.inj (hr.dataVa.symm.trans hm.2)
      exact hr.reserved
  have hother : ∀ k, k ≠ h → Function.update r.reserved h aligned k = r.reserved k := fun k hk =>
    Function.update_of_ne hk ..
  refine ⟨hi.io, hi.table.congr hw, hi.arena, hi.apartTable,
    ⟨hi.next.1.trans (Nat.le_add_right _ _), htop⟩, ⟨hi.handles.1, hi.handles.2.1, fun k f' hf' => ?_⟩, fun k f' hf' => ?_, fun j hj => ?_,
    fun k f' hf' => ?_, fun k k' f₁ f₂ va va' hne hm hm' => ?_⟩
  · rcases hcases k f' hf' with ⟨rfl, -⟩ | ⟨-, hf'⟩
    · exact ⟨hpos, hlast⟩
    · exact hi.handles.2.2 k f' hf'
  · rcases hcases k f' hf' with ⟨-, rfl⟩ | ⟨-, hf'⟩
    · rw [hgb]
      exact hi.size h f hf
    · exact hi.size k f' hf'
  · by_cases hji : j = i
    · subst hji
      refine .inr ⟨g, ?_, hgi⟩
      show AList.lookup (slotField m' _ _ _) _ = _
      rw [hself, FileState.lookup_setFile, if_pos rfl]
    · dsimp only
      rw [hothers j hji 0 (by decide), hothers j hji 32 (by decide)]
      refine (hi.slots j hj).imp_right fun ⟨f', hf', hfj⟩ => ⟨f', ?_, hfj⟩
      rw [FileState.lookup_setFile, if_neg (hi.slot_ne hf hun hj)]
      exact hf'
  · rcases hcases k f' hf' with ⟨rfl, rfl⟩ | ⟨hk, hf'⟩
    · refine .inr ⟨i, _, hgi, hgva, hlt, hself, hi.next.1, ?_, ?_⟩
      · show f'.bytes.length ≤ Function.update r.reserved k aligned k
        rw [Function.update_self, hgb]
        exact hfits
      · show _ + Function.update r.reserved k aligned k ≤ r.files.guestFileDataNext + aligned
        rw [Function.update_self]
    · refine (hi.files k f' hf').imp_right fun ⟨j, va, hr⟩ => ?_
      have hji : j ≠ i := by
        rintro rfl
        have := (hi.handles.2.2 k f' hf').1
        have := hr.slot
        omega
      refine ⟨j, va, hr.index, hr.dataVa, hr.lt, (hothers j hji 0 (by decide)).trans hr.slot,
        hr.base, hr.fits.trans (hother k hk).ge, ?_⟩
      show va + Function.update r.reserved h aligned k ≤ r.files.guestFileDataNext + aligned
      rw [hother k hk]
      have := hr.reserved
      omega
  · show va + Function.update r.reserved h aligned k ≤ va' ∨
      va' + Function.update r.reserved h aligned k' ≤ va
    rcases hcases k f₁ hm.1 with ⟨rfl, rfl⟩ | ⟨hk, hf₁⟩
    · rcases hcases k' f₂ hm'.1 with ⟨rfl, -⟩ | ⟨hk', hf₂⟩
      · exact (hne rfl).elim
      · obtain rfl := Option.some.inj (hgva.symm.trans hm.2)
        rw [hother k' hk']
        exact .inr (hbelow k' f₂ va' hk' ⟨hf₂, hm'.2⟩)
    · rcases hcases k' f₂ hm'.1 with ⟨rfl, rfl⟩ | ⟨hk', hf₂⟩
      · obtain rfl := Option.some.inj (hgva.symm.trans hm'.2)
        rw [hother k hk]
        exact .inl (hbelow k f₁ va hk ⟨hf₁, hm.2⟩)
      · rw [hother k hk, hother k' hk']
        exact hi.apart k k' f₁ f₂ va va' hne ⟨hf₁, hm.2⟩ ⟨hf₂, hm'.2⟩

/-- **Registering** a file that is not registered keeps mirrors apart: the new mirror lies past all
others. -/
theorem MirrorInv.register (hi : MirrorInv cfg r) (isMain : String → Bool)
    (hg : StaysInMirror r (.register h)) : MirrorInv cfg (r.next isMain (.register h)) := by
  have hun : ∀ f, r.files.openFiles.lookup h = some f → f.Unregistered := fun f hf => by
    rcases hi.files h f hf with hun | ⟨i, va, hr⟩
    · exact hun
    · have := hg f hf
      rw [hr.index] at this
      cases this
  -- without a slot, only memory past the mirrors can change
  have hkeep : ∀ m', m'.writable = r.mem.writable →
      (∀ x, x < r.files.guestFileDataNext ∨ cfg.fileDataBase + cfg.fileDataSize ≤ x →
        m'.byte x = r.mem.byte x) → MirrorInv cfg ⟨m', r.files, Function.update r.reserved h
          (r.files.guestFileDataNext - r.files.guestFileDataNext)⟩ := fun m' hw hb => by
    refine (hi.setMem_off hw fun x h1 h2 => hb x ?_).setReserved hun _
    have h3 := hi.apartTable
    have h4 := hi.next
    omega
  have hsame := hkeep r.mem rfl fun _ _ => rfl
  rw [MirrorRun.next, registerOpenFile, hi.io]
  cases hf : r.files.openFiles.lookup h with
  | none => exact hsame
  | some f =>
    have hfun := hun f hf
    have hsize := hi.size h f hf
    obtain ⟨hbase, htop⟩ := hi.next
    dsimp only
    split
    · exact hsame
    rw [checkedAdd_eq_some.mpr ⟨rfl, hi.arena⟩]
    dsimp only
    have haligned : f.bytes.length ≤ max (wrappingAdd f.bytes.length 15 / 16 * 16) 16 := by
      rw [wrappingAdd, Nat.mod_eq_of_lt (by omega)]
      omega
    generalize max (wrappingAdd f.bytes.length 15 / 16 * 16) 16 = aligned at haligned
    cases hc : checkedAdd r.files.guestFileDataNext aligned with
    | none => exact hsame
    | some newNext =>
      obtain ⟨rfl, -⟩ := checkedAdd_eq_some.mp hc
      dsimp only
      split
      · exact hsame
      rename_i hend
      cases hst : r.mem.store r.files.guestFileDataNext f.bytes with
      | none => exact hsame
      | some m₁ =>
        obtain ⟨rfl, -⟩ := store_eq_some hst
        dsimp only
        have hb₁ : ∀ x, x < r.files.guestFileDataNext ∨ cfg.fileDataBase + cfg.fileDataSize ≤ x →
            (r.mem.put r.files.guestFileDataNext f.bytes).byte x = r.mem.byte x := fun x hx =>
          byte_put_of_notMem (by omega)
        have hi₁ := @MirrorInv.setMem_off cfg r (r.mem.put r.files.guestFileDataNext f.bytes) hi rfl
          fun x h1 h2 => hb₁ x (by have := hi.apartTable; omega)
        have hstored := hkeep (r.mem.put r.files.guestFileDataNext f.bytes) rfl hb₁
        obtain ⟨slot, hslot, hfound⟩ := hi₁.table.findSlot_spec h
        dsimp only at hslot
        rw [hslot]
        cases slot with
        | none => exact hstored
        | some i =>
          obtain ⟨hlt, hfree⟩ := hfound i rfl
          dsimp only
          rw [hi.table.slotVaAt_eq hlt]
          dsimp only
          rw [hi.table.wrap hlt (by decide), hi.table.wrap hlt (by decide),
            hi.table.wrap hlt (by decide), hi.table.wrap hlt (by decide), storeAll_of_rw]
          · have hreserved : ((r.files.withDataNext (r.files.guestFileDataNext + aligned)).setFile h
                (f.withMirror r.files.guestFileDataNext i)).guestFileDataNext -
                  r.files.guestFileDataNext = aligned := Nat.add_sub_cancel_left ..
            dsimp only
            rw [hreserved]
            exact hi₁.fill hf hfun hlt (hfree.resolve_right (hi₁.slot_ne hf hfun hlt)) haligned
              (Nat.le_of_not_lt hend)
          · intro w hw
            simp only [List.mem_cons, List.not_mem_nil, or_false] at hw
            rcases hw with rfl | rfl | rfl | rfl | rfl
            · exact hi₁.table.slotRw hlt (show 0 + 8 ≤ 40 by decide)
            · exact hi₁.table.slotRw hlt (show 8 + 8 ≤ 40 by decide)
            · exact hi₁.table.slotRw hlt (show 16 + 8 ≤ 40 by decide)
            · exact hi₁.table.slotRw hlt (show 24 + 8 ≤ 40 by decide)
            · exact hi₁.table.slotRw hlt (show 32 + 8 ≤ 40 by decide)

/-! ### Runs -/

/-- **One step** keeps mirrors apart. -/
theorem MirrorInv.step (hi : MirrorInv cfg r) (isMain : String → Bool) {a : MirrorAction}
    (henv : MirrorEnv r a) (hg : StaysInMirror r a) : MirrorInv cfg (r.next isMain a) := by
  cases a with
  | openFile path bytes hostPath forceStream => exact hi.openFile isMain henv
  | register h => exact hi.register isMain hg
  | unregister h => exact hi.unregister isMain h
  | write h data => exact hi.write isMain hg
  | sync h => exact (hi.sync h).1
  | other mem => exact hi.setMem_off henv.1 (henv.2 cfg hi.io)

/-- The table is zero, the arena is empty, and no file is open. -/
structure MirrorInit (cfg : GuestIoConfig) (r : MirrorRun) : Prop where
  /-- The configuration. -/
  io : r.files.guestIo = some cfg
  /-- The table. -/
  table : TableAt r.mem cfg.tableVa
  /-- It is zero. -/
  zero : ∀ i, i < GUEST_IO_MAX_SLOTS → ∀ k, k ≤ 32 → slotField r.mem cfg.tableVa i k = 0
  /-- The arena. -/
  arena : cfg.fileDataBase + cfg.fileDataSize < 2 ^ 64
  /-- They are apart. -/
  apartTable : cfg.tableVa + GUEST_IO_MAX_SLOTS * GUEST_IO_SLOT_SIZE ≤ cfg.fileDataBase ∨
    cfg.fileDataBase + cfg.fileDataSize ≤ cfg.tableVa
  /-- The first mirror starts the arena. -/
  next : r.files.guestFileDataNext = cfg.fileDataBase
  /-- The first handle. -/
  handle : 0 < r.files.nextFileHandle ∧ r.files.nextFileHandle < 2 ^ 64
  /-- No file is open. -/
  noFiles : ∀ h, r.files.openFiles.lookup h = none

/-- The runs of files that are opened, registered, written to and closed. -/
def MirrorReach (isMain : String → Bool) (cfg : GuestIoConfig)
    (guard : MirrorRun → MirrorAction → Prop) : MirrorRun → Prop :=
  GuardedReach (MirrorInit cfg) (fun r a => MirrorEnv r a ∧ guard r a) fun r a r' =>
    r' = r.next isMain a

theorem MirrorInv.of_init (h : MirrorInit cfg r) : MirrorInv cfg r where
  io := h.io
  table := h.table
  arena := h.arena
  apartTable := h.apartTable
  next := by
    rw [h.next]
    exact ⟨le_rfl, Nat.le_add_right _ _⟩
  handles := ⟨h.handle.2, h.handle.1, fun k f hf => by rw [h.noFiles] at hf; cases hf⟩
  size k f hf := by rw [h.noFiles] at hf; cases hf
  slots i hi := .inl ⟨h.zero i hi 0 (by decide), h.zero i hi 32 (by decide)⟩
  files k f hf := by rw [h.noFiles] at hf; cases hf
  apart k k' f f' va va' hne hf := by
    have hf := hf.1
    rw [h.noFiles] at hf
    cases hf

/-- The mirrors of files are apart, and so are their slots. -/
structure MirrorsApart (cfg : GuestIoConfig) (r : MirrorRun) : Prop where
  /-- Mirrors lie in the arena. -/
  inside : ∀ h f va, MirroredAt r.files h va f →
    cfg.fileDataBase ≤ va ∧ va + f.bytes.length ≤ cfg.fileDataBase + cfg.fileDataSize
  /-- Mirrors share no byte. -/
  apart : ∀ h h' f f' va va', h ≠ h' → MirroredAt r.files h va f → MirroredAt r.files h' va' f' →
    va + f.bytes.length ≤ va' ∨ va' + f'.bytes.length ≤ va
  /-- Valid slots have different handles. -/
  slots : ∀ i j, i < GUEST_IO_MAX_SLOTS → j < GUEST_IO_MAX_SLOTS → i ≠ j →
    slotField r.mem cfg.tableVa i 32 = GUEST_IO_FLAG_VALID →
    slotField r.mem cfg.tableVa j 32 = GUEST_IO_FLAG_VALID →
      slotField r.mem cfg.tableVa i 0 ≠ slotField r.mem cfg.tableVa j 0
  /-- A copy to the guest changes the slot and the mirror of the file only. -/
  sync : ∀ h x, (∀ f i, r.files.openFiles.lookup h = some f → f.guestSlotIndex = some i →
      x < slotAddr cfg.tableVa i ∨ slotAddr cfg.tableVa i + 40 ≤ x) →
    (∀ f va, MirroredAt r.files h va f → x < va ∨ va + f.bytes.length ≤ x) →
      (syncSlotFromHost r.mem r.files h).byte x = r.mem.byte x

/-- The range reserved for a mirror holds the content. -/
theorem MirrorInv.reserved_spec (hi : MirrorInv cfg r) {va : ℕ} (hm : MirroredAt r.files h va f) :
    cfg.fileDataBase ≤ va ∧ f.bytes.length ≤ r.reserved h ∧
      va + r.reserved h ≤ r.files.guestFileDataNext := by
  rcases hi.files h f hm.1 with hun | ⟨i, va', hr⟩
  · have hva := hm.2
    rw [hun.2] at hva
    cases hva
  · obtain rfl := Option.some.inj (hr.dataVa.symm.trans hm.2)
    exact ⟨hr.base, hr.fits, hr.reserved⟩

/-- **Mirrors stay apart** while files do not grow past their mirrors. -/
theorem mirrors_apart {isMain : String → Bool} (h : MirrorReach isMain cfg StaysInMirror r) :
    MirrorsApart cfg r := by
  have hi : MirrorInv cfg r := by
    refine GuardedReach.invariant (fun _ => MirrorInv.of_init) ?_ h
    rintro r a r' hi ⟨henv, hg⟩ rfl
    exact hi.step isMain henv hg
  refine ⟨fun k f va hm => ?_, fun k k' f f' va va' hne hm hm' => ?_,
    fun i j hilt hjlt hne hvi hvj he => ?_, fun k => (hi.sync k).2⟩
  · obtain ⟨h1, h2, h3⟩ := hi.reserved_spec hm
    have := hi.next.2
    exact ⟨h1, by omega⟩
  · have h1 := hi.reserved_spec hm
    have h2 := hi.reserved_spec hm'
    have := hi.apart k k' f f' va va' hne hm hm'
    omega
  · refine hne (hi.slot_unique hilt hjlt (fun h0 => ?_) he)
    rcases hi.slots i hilt with ⟨-, hz⟩ | ⟨f, hf, -⟩
    · rw [hz] at hvi
      cases hvi
    · have := (hi.handles.2.2 _ f hf).1
      omega

/-! ### Two files of three bytes -/

/-- A table and an arena of one page each. -/
def mirrorConfig : GuestIoConfig := ⟨0x10000, 0x20000, 0x1000⟩

/-- No file is open. -/
def mirrorStart : MirrorRun where
  mem := blank
  files := ⟨∅, 0x67000001, some mirrorConfig, 0x20000, [], 0, fun _ => none⟩
  reserved := fun _ => 0

theorem mirrorStart_init : MirrorInit mirrorConfig mirrorStart where
  io := rfl
  table := ⟨by decide, fun _ _ _ => rfl⟩
  zero i hi k hk := by
    show fromLe (List.replicate 8 0) = 0
    rw [← toLe_zero, fromLe_toLe]
    rfl
  arena := by decide
  apartTable := .inl (by decide)
  next := rfl
  handle := by decide
  noFiles _ := rfl

/-- A file is opened and registered. -/
def MirrorRun.opened (r : MirrorRun) (path : String) (bytes : List UInt8) : MirrorRun :=
  (r.next (fun _ => false) (.openFile path bytes none false)).next (fun _ => false)
    (.register r.files.nextFileHandle)

theorem reach_opened {guard : MirrorRun → MirrorAction → Prop} {path : String} {bytes : List UInt8}
    (h : MirrorReach (fun _ => false) cfg guard r) (hb : bytes.length < 2 ^ 63)
    (h1 : guard r (.openFile path bytes none false))
    (h2 : guard (r.next (fun _ => false) (.openFile path bytes none false))
      (.register r.files.nextFileHandle)) :
    MirrorReach (fun _ => false) cfg guard (r.opened path bytes) := by
  have hopen : MirrorReach (fun _ => false) cfg guard
      (r.next (fun _ => false) (.openFile path bytes none false)) :=
    .step (o := .openFile path bytes none false) h ⟨hb, h1⟩ rfl
  exact .step (o := .register r.files.nextFileHandle) hopen ⟨trivial, h2⟩ rfl

/-- Two files of three bytes. -/
def twoFiles : MirrorRun := (mirrorStart.opened "a" [1, 2, 3]).opened "b" [4, 5, 6]

/-- The mirrors of the two files are apart. -/
theorem mirrors_apart_two : MirrorsApart mirrorConfig twoFiles := by
  have hreg : ∀ {r : MirrorRun} {h : ℕ},
      ((r.files.openFiles.lookup h).all fun f => f.guestSlotIndex.isNone) = true →
      StaysInMirror r (.register h) := fun hall f hf => by
    rw [hf] at hall
    exact Option.isNone_iff_eq_none.mp hall
  have h1 : MirrorReach (fun _ => false) mirrorConfig StaysInMirror
      (mirrorStart.opened "a" [1, 2, 3]) :=
    reach_opened (.init mirrorStart_init) (by decide) trivial (hreg (by decide +kernel))
  exact mirrors_apart (reach_opened h1 (by decide) trivial (hreg (by decide +kernel)))

/-- A file that grows to twenty bytes reaches into the mirror of the next one. -/
theorem not_mirrors_apart : ∃ r, MirrorReach (fun _ => false) mirrorConfig (fun _ _ => True) r ∧
    ¬ MirrorsApart mirrorConfig r := by
  have h2 : MirrorReach (fun _ => false) mirrorConfig (fun _ _ => True) twoFiles :=
    reach_opened (reach_opened (.init mirrorStart_init) (by decide) trivial trivial) (by decide)
      trivial trivial
  have h3 : MirrorReach (fun _ => false) mirrorConfig (fun _ _ => True)
      (twoFiles.next (fun _ => false) (.write 0x67000001 (List.replicate 20 7))) :=
    .step (o := .write 0x67000001 (List.replicate 20 7)) h2 ⟨trivial, trivial⟩ rfl
  refine ⟨_, h3, fun hapart => ?_⟩
  have hm : MirroredAt (twoFiles.next (fun _ => false)
      (.write 0x67000001 (List.replicate 20 7))).files
      0x67000001 0x20000 ⟨"a", List.replicate 20 7, 20, none, false, some 0x20000, some 0⟩ :=
    ⟨by decide +kernel, rfl⟩
  have hm' : MirroredAt (twoFiles.next (fun _ => false)
      (.write 0x67000001 (List.replicate 20 7))).files
      0x67000002 0x20010 ⟨"b", [4, 5, 6], 0, none, false, some 0x20010, some 1⟩ :=
    ⟨by decide +kernel, rfl⟩
  have := hapart.apart _ _ _ _ _ _ (by decide) hm hm'
  revert this
  decide

end Wie
