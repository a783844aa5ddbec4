import Wie.Lib.Flat
import Wie.Mem.FlatStore

/-!
# Handlers and guest memory

Handlers of the Windows API see guest memory as a flat memory with permissions. This is what it is
to them: their reads are loads of the flat memory, and so are their writes stores, in runs of safe
calls.

## Main definitions

* `GuestMemory.flat` — guest memory as handlers see it

## Main results

* `GuestMemory.Inv.read_flat`, `GuestMemory.SealInv.write_flat`
-/

namespace Wie

namespace GuestMemory

variable {env : HostEnv} {m : GuestMemory}

theorem grants_read_of_write {t : PageTable} {p : ℕ} (h : t.grants .write p = true) :
    t.grants .read p = true := by
  obtain ⟨protect, ht, ha⟩ := PageTable.grants_iff.mp h
  exact PageTable.grants_iff.mpr ⟨protect, ht, Protect.allowsRead_of_allowsWrite ha⟩

/-- Guest memory as handlers see it. -/
def flat (m : GuestMemory) : Flat where
  byte x := (m.backend.byte x).getD 0
  readable x := m.pages.table.grants .read (x / 0x1000)
  writable x := m.pages.table.grants .write (x / 0x1000)
  readable_of_writable _ h := grants_read_of_write h

theorem granted_iff_all (kind : AccessKind) (address len : ℕ) : m.Granted kind address len ↔
    ((List.range len).all fun i => m.pages.table.grants kind ((address + i) / 0x1000)) = true := by
  rw [List.all_eq_true]
  constructor
  · intro h i hi
    have := List.mem_range.mp hi
    exact h _ (by omega) (by omega)
  · intro h x h1 h2
    have := h (x - address) (List.mem_range.mpr (by omega))
    rwa [Nat.add_sub_of_le h1] at this

theorem load_flat (m : GuestMemory) (address len : ℕ) [Decidable (m.Granted .read address len)] :
    m.flat.load address len =
      if m.Granted .read address len then some (m.flat.bytes address len) else none := by
  rw [Flat.load]
  exact if_congr (granted_iff_all ..).symm rfl rfl

theorem store_flat (m : GuestMemory) (address : ℕ) (bytes : List UInt8)
    [Decidable (m.Granted .write address bytes.length)] : m.flat.store address bytes =
      if m.Granted .write address bytes.length then some (m.flat.put address bytes) else none := by
  rw [Flat.store]
  exact if_congr (granted_iff_all ..).symm rfl rfl

/-- **A read is a load.** -/
theorem Inv.read_flat (h : Inv env m) (address len : ℕ) (v : List UInt8) :
    (m.read env address len).1 = .ok v ↔ m.flat.load address len = some v := by
  classical
  rw [load_flat]
  by_cases hg : m.Granted .read address len
  · rw [h.read_eq hg, if_pos hg]
    exact ⟨fun he => congrArg some (Outcome.ok.inj he), fun he => congrArg _ (Option.some.inj he)⟩
  · rw [if_neg hg]
    exact ⟨fun hr => absurd ((h.read_isOk address len).mp ⟨v, hr⟩) hg, nofun⟩

/-- A write puts its bytes. -/
theorem Wrote.flat {m' : GuestMemory} {address : ℕ} {bytes : List UInt8}
    (hw : Wrote env m address bytes m') : m'.flat = m.flat.put address bytes := by
  have ht := hw.table
  have hb : (fun x => (m'.backend.byte x).getD 0) = (m.flat.put address bytes).byte := by
    funext x
    rw [hw.backend.byte]
    show _ = if address ≤ x ∧ x < address + bytes.length then _ else (m.backend.byte x).getD 0
    by_cases hx : address ≤ x ∧ x < address + bytes.length
    · rw [if_pos hx, if_pos hx]
      rfl
    · rw [if_neg hx, if_neg hx]
  simp only [GuestMemory.flat, ht, hb]
  rfl

/-- **A write is a store**, in a run of safe calls. -/
theorem SealInv.write_flat {S : Set ℕ} (hi : SealInv env (m, S)) (h : Inv env m) (address : ℕ)
    (bytes : List UInt8) :
    match m.flat.store address bytes with
    | some f => (m.write env address bytes).1 = .ok () ∧ (m.write env address bytes).2.flat = f
    | none => (∃ e, (m.write env address bytes).1 = .error e) ∧
        (m.write env address bytes).2.flat = m.flat := by
  classical
  rw [store_flat]
  rcases hi.write_cases h address bytes with ⟨hg, hok, hw⟩ | ⟨hg, he, hs⟩
  · rw [if_pos hg]
    exact ⟨hok, hw.flat⟩
  · rw [if_neg hg]
    refine ⟨he, ?_⟩
    have ht := hs.table
    simp only [flat, ht, hs.backend]

end GuestMemory

end Wie
