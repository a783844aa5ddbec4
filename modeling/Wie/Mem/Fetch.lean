import Wie.Mem.FlatStore

/-!
# Fetching instructions

A fetch asks for execute permission and is cut short at the first page that does not grant it; a
fetch of nothing is an error.

## Main definitions

* `GuestMemory.fetchInto`
* `GuestMemory.bytesAt` — the content of a range

## Main results

* `GuestMemory.Inv.fetchInto_spec` — a fetch returns the longest range that may be executed
-/

namespace Wie

/-- A fetch from the arenas, cut short where they end; `len` is the length to try first. -/
def ArenaSet.fetchInto (env : HostEnv) (s : ArenaSet) (address : ℕ) : (len : ℕ) → Outcome (List UInt8)
  | 0 => .error (.message s!"instruction fetch unmapped {hex address}")
  | len + 1 =>
    match s.read env address (len + 1) with
    | .ok bytes => .ok bytes
    | .crash => .crash
    | .error _ => s.fetchInto env address len

namespace GuestMemory

/-- The loop of `fetch_into`; `len` is the length to try next. -/
def fetchLoop (env : HostEnv) (address : ℕ) : (len : ℕ) → GuestMemory →
    Outcome (List UInt8) × GuestMemory
  | 0, m => (.error (.message s!"instruction fetch unmapped {hex address}"), m)
  | len + 1, m =>
    match m.pages.checkAccess address (len + 1) .execute with
    | (.ok (), pages) => (m.backend.fetchInto env address (len + 1), { m with pages := pages })
    | (.error _, pages) => fetchLoop env address len { m with pages := pages }

/-- `fetch_into`: at most `want` and at most fifteen bytes. -/
def fetchInto (env : HostEnv) (m : GuestMemory) (address want : ℕ) :
    Outcome (List UInt8) × GuestMemory :=
  if min want 15 = 0 then (.ok [], m) else m.fetchLoop env address (min want 15)

/-- The content of `[address, address + len)`. -/
def bytesAt (m : GuestMemory) (address len : ℕ) : List UInt8 :=
  (List.range len).map fun i => (m.backend.byte (address + i)).getD 0

variable {env : HostEnv} {m : GuestMemory}

/-- A permission check changes nothing but the cache of the page map. -/
theorem Inv.same_checkAccess (h : Inv env m) (address len : ℕ) (kind : AccessKind) :
    Same m { m with pages := (m.pages.checkAccess address len kind).2 } := by
  obtain ⟨hv, hr⟩ := h.pages.checkAccess_keeps address len kind
  exact ⟨rfl, hr, hv, rfl, rfl⟩

/-- What a fetch of granted bytes returns. -/
theorem Inv.backend_fetchInto (h : Inv env m) {kind : AccessKind} {address len : ℕ}
    (hg : m.Granted kind address (len + 1)) :
    m.backend.fetchInto env address (len + 1) = .ok (m.bytesAt address (len + 1)) := by
  have hback (x : ℕ) (h1 : address ≤ x) (h2 : x < address + (len + 1)) :
      (m.backend.hostAddr x).isSome = true := by
    obtain ⟨p, hp, -⟩ := PageTable.grants_iff.mp (hg x h1 h2)
    exact h.backed x (by rw [hp]; simp)
  rw [ArenaSet.fetchInto, h.placed.read_spec h.readable hback]
  rfl

/-- **A fetch returns the longest range that may be executed**, up to the length asked for. -/
theorem Inv.fetchLoop_spec (address : ℕ) : ∀ (len : ℕ) {m : GuestMemory}, Inv env m →
    (∃ n, 0 < n ∧ n ≤ len ∧ m.Granted .execute address n ∧
      (n < len → ¬ m.Granted .execute address (n + 1)) ∧
      (m.fetchLoop env address len).1 = .ok (m.bytesAt address n)) ∨
    ((0 < len → ¬ m.Granted .execute address 1) ∧ ∃ e, (m.fetchLoop env address len).1 = .error e) := by
  intro len
  induction len with
  | zero => exact fun _ => .inr ⟨fun h => absurd h (lt_irrefl 0), _, rfl⟩
  | succ len ih =>
    intro m h
    have hiff := h.checkAccess_iff address (len + 1) .execute
    have hsame := h.same_checkAccess address (len + 1) .execute
    rw [fetchLoop]
    cases hc : m.pages.checkAccess address (len + 1) .execute with
    | mk r pages =>
      rw [hc] at hiff hsame
      cases r with
      | ok u =>
        have hg := hiff.mp rfl
        exact .inl ⟨len + 1, Nat.succ_pos len, le_rfl, hg, fun hlt => absurd hlt (lt_irrefl _),
          h.backend_fetchInto hg⟩
      | error e =>
        have hno : ¬ m.Granted .execute address (len + 1) := fun hg => by
          have := hiff.mpr hg
          cases this
        have hgr : ∀ n, ({ m with pages := pages } : GuestMemory).Granted .execute address n ↔
            m.Granted .execute address n := fun n => by
          have ht : ({ m with pages := pages } : GuestMemory).pages.table = m.pages.table := hsame.table
          unfold Granted
          rw [ht]
        rcases ih (hsame.inv h) with ⟨n, hpos, hle, hg, hmax, hok⟩ | ⟨hone, herr⟩
        · refine .inl ⟨n, hpos, hle.trans (Nat.le_succ len), (hgr n).mp hg, fun _ hg' => ?_, hok⟩
          rcases Nat.lt_or_ge n len with hlt | hge
          · exact hmax hlt ((hgr _).mpr hg')
          · obtain rfl : n = len := le_antisymm hle hge
            exact hno hg'
        · refine .inr ⟨fun _ hg => ?_, herr⟩
          cases len with
          | zero => exact hno hg
          | succ len => exact hone (Nat.succ_pos len) ((hgr 1).mpr hg)

end GuestMemory

end Wie
