import Wie.Winapi.OpenFile

/-!
# The guest table of open files

The loops over the slots, and the copies from and to a slot, on a table that is in place.

## Main definitions

* `TableAt` — a table that is in place
* `slotField` — a field of a slot

## Main results

* `TableAt.findSlot_spec`, `TableAt.clearSlot_spec` — what the loops find
* `TableAt.syncSlot_eq`, `TableAt.syncHostCursor_eq` — the copies
-/

namespace Wie

open Flat

/-- A slot of the table. -/
def slotAddr (tableVa i : ℕ) : ℕ := tableVa + i * GUEST_IO_SLOT_SIZE

/-- The field of a slot at an offset. -/
def slotField (m : Flat) (tableVa i offset : ℕ) : ℕ := m.get (slotAddr tableVa i + offset) 8

/-- A table that lies in the address space and may be written. -/
structure TableAt (m : Flat) (tableVa : ℕ) : Prop where
  /-- It lies in the address space. -/
  top : tableVa + GUEST_IO_MAX_SLOTS * GUEST_IO_SLOT_SIZE < 2 ^ 64
  /-- It may be written. -/
  rw : m.Rw tableVa (GUEST_IO_MAX_SLOTS * GUEST_IO_SLOT_SIZE)

variable {m m' : Flat} {s : FileState} {f : OpenGuestFile} {tableVa handle i : ℕ}

/-- Slots lie in the table. -/
theorem slotAddr_bounds (tableVa : ℕ) (hi : i < GUEST_IO_MAX_SLOTS) : tableVa ≤ slotAddr tableVa i ∧
    slotAddr tableVa i + 40 ≤ tableVa + GUEST_IO_MAX_SLOTS * GUEST_IO_SLOT_SIZE := by
  rw [GUEST_IO_MAX_SLOTS] at hi ⊢
  rw [slotAddr, GUEST_IO_SLOT_SIZE]
  omega

/-- Different slots are apart. -/
theorem slotAddr_apart (tableVa : ℕ) {j : ℕ} (h : i ≠ j) :
    slotAddr tableVa i + 40 ≤ slotAddr tableVa j ∨
      slotAddr tableVa j + 40 ≤ slotAddr tableVa i := by
  rw [slotAddr, slotAddr, GUEST_IO_SLOT_SIZE]
  omega

namespace TableAt

theorem congr (h : TableAt m tableVa) (hw : m'.writable = m.writable) : TableAt m' tableVa :=
  ⟨h.top, h.rw.congr hw⟩

theorem slotVaAt_eq (h : TableAt m tableVa) (hi : i < GUEST_IO_MAX_SLOTS) :
    slotVaAt tableVa i = some (slotAddr tableVa i) := by
  have hb := slotAddr_bounds tableVa hi
  have htop := h.top
  have hlt : slotAddr tableVa i < 2 ^ 64 := by omega
  exact checkedAdd_eq_some.mpr ⟨rfl, hlt⟩

theorem wrap (h : TableAt m tableVa) (hi : i < GUEST_IO_MAX_SLOTS) {k : ℕ} (hk : k ≤ 32) :
    wrappingAdd (slotAddr tableVa i) k = slotAddr tableVa i + k := by
  have hb := slotAddr_bounds tableVa hi
  have htop := h.top
  exact Nat.mod_eq_of_lt (by omega)

theorem slotRw (h : TableAt m tableVa) (hi : i < GUEST_IO_MAX_SLOTS) {k n : ℕ} (hk : k + n ≤ 40) :
    m.Rw (slotAddr tableVa i + k) n := by
  have hb := slotAddr_bounds tableVa hi
  exact h.rw.mono (by omega) (by omega)

theorem loadHandle (h : TableAt m tableVa) (hi : i < GUEST_IO_MAX_SLOTS) :
    m.loadLe (slotAddr tableVa i) 8 = some (slotField m tableVa i 0) :=
  (h.slotRw hi (k := 0) (by decide)).loadLe

theorem findSlot_list (h : TableAt m tableVa) (handle : ℕ) (is : List ℕ)
    (his : ∀ i ∈ is, i < GUEST_IO_MAX_SLOTS) :
    ∃ r, findSlot m tableVa handle is = .ok r ∧ ∀ i, r = some i →
      i ∈ is ∧ (slotField m tableVa i 0 = 0 ∨ slotField m tableVa i 0 = handle) := by
  induction is with
  | nil => exact ⟨none, rfl, nofun⟩
  | cons i is ih =>
    have hi := his i (.head _)
    rw [findSlot, h.slotVaAt_eq hi]
    dsimp only
    rw [h.loadHandle hi]
    dsimp only
    split
    · rename_i hfound
      refine ⟨some i, rfl, fun j hj => ?_⟩
      obtain rfl := Option.some.inj hj
      exact ⟨.head _, hfound⟩
    · obtain ⟨r, hr, hspec⟩ := ih fun j hj => his j (.tail _ hj)
      exact ⟨r, hr, fun j hj => ⟨.tail _ (hspec j hj).1, (hspec j hj).2⟩⟩

theorem clearSlot_list (h : TableAt m tableVa) (handle : ℕ) (is : List ℕ)
    (his : ∀ i ∈ is, i < GUEST_IO_MAX_SLOTS) :
    (clearSlot m tableVa handle is = .ok m ∧ ∀ i ∈ is, slotField m tableVa i 0 ≠ handle) ∨
      ∃ i ∈ is, slotField m tableVa i 0 = handle ∧ clearSlot m tableVa handle is =
        .ok (m.put (slotAddr tableVa i) (List.replicate GUEST_IO_SLOT_SIZE 0)) := by
  induction is with
  | nil => exact .inl ⟨rfl, nofun⟩
  | cons i is ih =>
    have hi := his i (.head _)
    rw [clearSlot, h.slotVaAt_eq hi]
    dsimp only
    rw [h.loadHandle hi]
    dsimp only
    split
    · rename_i hfound
      refine .inr ⟨i, .head _, hfound, ?_⟩
      rw [Rw.store]
      rw [List.length_replicate]
      exact h.slotRw hi (k := 0) (by decide)
    · rename_i hne
      rcases ih fun j hj => his j (.tail _ hj) with ⟨hok, hall⟩ | ⟨j, hj, hfound, hok⟩
      · refine .inl ⟨hok, fun j hj => ?_⟩
        rcases List.mem_cons.mp hj with rfl | hj
        · exact hne
        · exact hall j hj
      · exact .inr ⟨j, .tail _ hj, hfound, hok⟩

/-- **The search for a slot** finds one that is free or has the handle. -/
theorem findSlot_spec (h : TableAt m tableVa) (handle : ℕ) :
    ∃ r, findSlot m tableVa handle (List.range GUEST_IO_MAX_SLOTS) = .ok r ∧ ∀ i, r = some i →
      i < GUEST_IO_MAX_SLOTS ∧
        (slotField m tableVa i 0 = 0 ∨ slotField m tableVa i 0 = handle) := by
  obtain ⟨r, hr, hspec⟩ := h.findSlot_list handle _ fun i hi => List.mem_range.mp hi
  exact ⟨r, hr, fun i hi => ⟨List.mem_range.mp (hspec i hi).1, (hspec i hi).2⟩⟩

/-- **Clearing** zeroes the first slot that has the handle, if there is one. -/
theorem clearSlot_spec (h : TableAt m tableVa) (handle : ℕ) :
    (clearSlot m tableVa handle (List.range GUEST_IO_MAX_SLOTS) = .ok m ∧
      ∀ i, i < GUEST_IO_MAX_SLOTS → slotField m tableVa i 0 ≠ handle) ∨
    ∃ i, i < GUEST_IO_MAX_SLOTS ∧ slotField m tableVa i 0 = handle ∧
      clearSlot m tableVa handle (List.range GUEST_IO_MAX_SLOTS) =
        .ok (m.put (slotAddr tableVa i) (List.replicate GUEST_IO_SLOT_SIZE 0)) := by
  rcases h.clearSlot_list handle _ fun i hi => List.mem_range.mp hi with
    ⟨hok, hall⟩ | ⟨i, hi, hfound, hok⟩
  · exact .inl ⟨hok, fun i hi => hall i (List.mem_range.mpr hi)⟩
  · exact .inr ⟨i, List.mem_range.mp hi, hfound, hok⟩

end TableAt

theorem slot_of_lookup (h : s.openFiles.lookup handle = some f) :
    s.slot handle = (f.slotVa s.guestIo).map fun slotVa => (f, slotVa) := by
  rw [FileState.slot, h, Option.bind_some]

/-- The memory after a file was copied to its slot and its mirror. -/
def synced (m : Flat) (tableVa i : ℕ) (f : OpenGuestFile) : Flat :=
  let slotVa := slotAddr tableVa i
  let m := (m.set (slotVa + 16) 8 f.bytes.length).set (slotVa + 24) 8 f.cursor
  match f.guestDataVa with
  | none => m
  | some dataVa => if f.bytes = [] then m else (m.store dataVa f.bytes).getD m

@[simp] theorem writable_synced (m : Flat) (tableVa i : ℕ) (f : OpenGuestFile) :
    (synced m tableVa i f).writable = m.writable := by
  rw [synced]
  cases f.guestDataVa with
  | none => rfl
  | some va =>
    dsimp only
    split
    · rfl
    · cases hs : Flat.store _ va f.bytes with
      | none => rfl
      | some m' => rw [Option.getD_some, (store_eq_some hs).1]; rfl

/-- **A copy to the guest changes two fields of the slot, and the mirror.** -/
theorem byte_synced {x : ℕ} (hslot : x < slotAddr tableVa i + 16 ∨ slotAddr tableVa i + 32 ≤ x)
    (hmirror : ∀ va, f.guestDataVa = some va → x < va ∨ va + f.bytes.length ≤ x) :
    (synced m tableVa i f).byte x = m.byte x := by
  have hfields : ((m.set (slotAddr tableVa i + 16) 8 f.bytes.length).set (slotAddr tableVa i + 24) 8
      f.cursor).byte x = m.byte x := by
    rw [byte_set_of_notMem (by omega), byte_set_of_notMem (by omega)]
  rw [synced]
  cases hva : f.guestDataVa with
  | none => exact hfields
  | some va =>
    dsimp only
    split
    · exact hfields
    · cases hs : Flat.store _ va f.bytes with
      | none => exact hfields
      | some m' =>
        rw [Option.getD_some, (store_eq_some hs).1, byte_put_of_notMem (hmirror va hva)]
        exact hfields

namespace TableAt

variable {cfg : GuestIoConfig}

theorem slotVa_eq (h : TableAt m cfg.tableVa) (hio : s.guestIo = some cfg)
    (hi : f.guestSlotIndex = some i) (hlt : i < GUEST_IO_MAX_SLOTS) :
    f.slotVa s.guestIo = some (slotAddr cfg.tableVa i) := by
  rw [OpenGuestFile.slotVa, hi, hio, Option.bind_some, Option.bind_some, h.slotVaAt_eq hlt]

/-- **A copy to the guest** fills in size, cursor and content. -/
theorem syncSlot_eq (h : TableAt m cfg.tableVa) (hio : s.guestIo = some cfg)
    (hf : s.openFiles.lookup handle = some f) (hi : f.guestSlotIndex = some i)
    (hlt : i < GUEST_IO_MAX_SLOTS) : syncSlotFromHost m s handle = synced m cfg.tableVa i f := by
  rw [syncSlotFromHost, slot_of_lookup hf, h.slotVa_eq hio hi hlt, Option.map_some]
  dsimp only
  rw [h.wrap hlt (by decide), h.wrap hlt (by decide), storeAll_of_rw]
  · rfl
  · intro w hw
    simp only [List.mem_cons, List.not_mem_nil, or_false] at hw
    rcases hw with rfl | rfl
    · exact h.slotRw hlt (show 16 + 8 ≤ 40 by decide)
    · exact h.slotRw hlt (show 24 + 8 ≤ 40 by decide)

/-- **The cursor is taken back** from the slot. -/
theorem syncHostCursor_eq (h : TableAt m cfg.tableVa) (hio : s.guestIo = some cfg)
    (hf : s.openFiles.lookup handle = some f) (hi : f.guestSlotIndex = some i)
    (hlt : i < GUEST_IO_MAX_SLOTS) : syncHostCursorFromGuest m s handle =
      s.setFile handle (f.withCursor (slotField m cfg.tableVa i 24)) := by
  rw [syncHostCursorFromGuest, slot_of_lookup hf, h.slotVa_eq hio hi hlt, Option.map_some]
  dsimp only
  rw [h.wrap hlt (by decide), (h.slotRw hlt (by decide)).loadLe]
  rfl

end TableAt

end Wie
