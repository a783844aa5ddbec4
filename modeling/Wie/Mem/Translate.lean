import Wie.Mem.Arena

/-!
# Translation and storage

The invariant of the arenas and what follows from it: every guest address has at most one host
address, no two guest addresses share one, and the addresses of a guest page are contiguous on the
host. With that, a store through a translated address changes exactly the guest bytes it names.

The invariant has two halves. `Placed` is about the places alone and survives everything that
leaves them alone. `Readable` is about the host: all pages under an arena are mapped, and mapped
for reading. Nothing says that they are mapped for writing; that is the business of whoever
writes.

## Main definitions

* `ArenaSet.Placed`, `ArenaSet.Readable` — the invariant
* `ArenaSet.hostAddr`, `ArenaSet.byte` — the host address and the content of a guest address

## Main results

* `ArenaSet.Placed.hostAddr_inj`, `ArenaSet.Placed.hostAddr_add` — translation is injective, and
  contiguous within a page
* `ArenaSet.Placed.writeChunks_spec`, `ArenaSet.Placed.discardRange_spec`,
  `ArenaSet.Placed.read_spec` — what the access loops do
-/

namespace Wie

namespace HostSpan

variable {a b : HostSpan} {va x : ℕ}

/-- The guest addresses of an arena. -/
def Holds (a : HostSpan) (va : ℕ) : Prop := a.guestBase ≤ va ∧ va < a.guestBase + a.size

/-- The host addresses of an arena, in whole host pages. -/
def Owns (env : HostEnv) (a : HostSpan) (x : ℕ) : Prop :=
  a.host ≤ x ∧ x < a.host + Host.pageCount env a.size * env.pageSize

theorem Holds.owns (h : a.Holds va) (env : HostEnv) : a.Owns env (a.host + (va - a.guestBase)) := by
  have := Host.le_pageCount_mul env a.size
  obtain ⟨h1, h2⟩ := h
  exact ⟨by omega, by omega⟩

end HostSpan

namespace ArenaSet

/-- Places of arenas: in order and disjoint on the guest side, page-aligned and below the top;
non-null, host-page-aligned, below the top and disjoint on the host side. -/
structure Placed (env : HostEnv) (l : List HostSpan) : Prop where
  /-- In order of guest base, non-empty and disjoint. -/
  extents : Extents HostSpan.guestBase (fun a => a.guestBase + a.size) l
  /-- Bases and sizes are whole guest pages. -/
  aligned : ∀ a ∈ l, a.guestBase % 0x1000 = 0 ∧ a.size % 0x1000 = 0
  /-- No arena reaches the top of the guest address space. -/
  bounded : ∀ a ∈ l, a.guestBase + a.size < 2 ^ 64
  /-- Host addresses are non-null and start a host page. -/
  based : ∀ a ∈ l, 0 < a.host ∧ a.host % env.pageSize = 0
  /-- No arena reaches the top of the host address space. -/
  fits : ∀ a ∈ l, a.host + Host.pageCount env a.size * env.pageSize < 2 ^ 64
  /-- Two arenas share no host page. -/
  apart : ∀ a ∈ l, ∀ b ∈ l, a ≠ b → ∀ x, a.Owns env x → ¬ b.Owns env x

/-- The host pages of the arenas are mapped for reading. -/
def Readable (env : HostEnv) (s : ArenaSet) : Prop :=
  ∀ a ∈ s.spans, ∀ x, a.Owns env x → ∃ q, s.host.prot (x / env.pageSize) = some q ∧ q.r = true

/-- The arena around a guest address. -/
def spanAt (s : ArenaSet) (va : ℕ) : Option HostSpan := (s.findVa va).map MmapArena.toHostSpan

/-- The host address of a guest address. -/
def hostAddr (s : ArenaSet) (va : ℕ) : Option ℕ :=
  (s.spanAt va).map fun a => a.host + (va - a.guestBase)

/-- The content of a guest address. -/
def byte (s : ArenaSet) (va : ℕ) : Option UInt8 := (s.hostAddr va).map s.host.mem

variable {env : HostEnv} {s s' : ArenaSet} {a b : HostSpan} {va x p : ℕ}

theorem placed_nil : Placed env [] :=
  ⟨.nil, by simp, by simp, by simp, by simp, by simp⟩

namespace Placed

theorem guestEnd_eq {l : List HostSpan} (h : Placed env l) (ha : a ∈ l) :
    a.guestEnd = a.guestBase + a.size :=
  satAdd_of_lt (h.bounded a ha)

theorem containsVa_iff {l : List HostSpan} (h : Placed env l) (ha : a ∈ l) :
    a.containsVa va = true ↔ a.Holds va := by
  rw [HostSpan.containsVa, decide_eq_true_eq, h.guestEnd_eq ha, HostSpan.Holds]

theorem eq_of_holds {l : List HostSpan} (h : Placed env l) (ha : a ∈ l) (hb : b ∈ l)
    (hva : a.Holds va) (hvb : b.Holds va) : a = b :=
  h.extents.unique ha hb hva hvb

theorem eq_of_owns {l : List HostSpan} (h : Placed env l) (ha : a ∈ l) (hb : b ∈ l)
    (hxa : a.Owns env x) (hxb : b.Owns env x) : a = b := by
  by_contra hne
  exact h.apart a ha b hb hne x hxa hxb

/-! ### Looking up -/

theorem extents_arenas (h : Placed env s.spans) :
    Extents (fun a : MmapArena => a.guestBase) (fun a => a.guestBase + a.size) s.arenas where
  pos a ha := h.extents.pos a.toHostSpan (List.mem_map_of_mem ha)
  apart := List.pairwise_map.mp h.extents.apart

/-- **Bisection finds the arena around an address.** -/
theorem spanAt_eq_some (h : Placed env s.spans) :
    s.spanAt va = some a ↔ a ∈ s.spans ∧ a.Holds va := by
  have hext := h.extents_arenas
  have hsep : Separates (fun a : MmapArena => a.guestBase) s.arenas va
      (bisect (fun a => a.guestBase) s.arenas va s.arenas.length 0 s.arenas.length) :=
    bisect_spec hext va _ 0 _ (by omega) (by omega) le_rfl (fun k a hk => absurd hk (by omega))
      fun k a hk hget => by
        rw [List.getElem?_eq_none hk] at hget
        cases hget
  unfold spanAt
  rw [Option.map_eq_some_iff]
  constructor
  · rintro ⟨b, hf, rfl⟩
    unfold findVa at hf
    split at hf
    · cases hf
    · split at hf
      · cases hf
      · rename_i hget
        split at hf
        · rename_i hc
          cases hf
          have hmem : b.toHostSpan ∈ s.spans := List.mem_map_of_mem (List.mem_of_getElem? hget)
          exact ⟨hmem, (h.containsVa_iff hmem).mp hc⟩
        · cases hf
  · rintro ⟨ha, hva⟩
    obtain ⟨b, hb, rfl⟩ := List.mem_map.mp ha
    obtain ⟨k, hk, hget⟩ := hext.getElem?_pred_of_separates hsep hb hva
    have hne : s.arenas.isEmpty = false := by
      cases hl : s.arenas with
      | nil => simp [hl] at hb
      | cons _ _ => rfl
    refine ⟨b, ?_, rfl⟩
    simp only [findVa, candidateIndex, hne, hk, hget, Bool.false_eq_true, if_false,
      (h.containsVa_iff ha).mpr hva, if_true]

theorem spanAt_eq_none (h : Placed env s.spans) :
    s.spanAt va = none ↔ ∀ a ∈ s.spans, ¬ a.Holds va := by
  rw [Option.eq_none_iff_forall_ne_some]
  exact forall_congr' fun a => by rw [ne_eq, h.spanAt_eq_some, not_and]

theorem hostAddr_eq_some (h : Placed env s.spans) :
    s.hostAddr va = some p ↔
      ∃ a ∈ s.spans, a.Holds va ∧ p = a.host + (va - a.guestBase) := by
  rw [hostAddr, Option.map_eq_some_iff]
  constructor
  · rintro ⟨a, ha, rfl⟩
    obtain ⟨ha, hva⟩ := h.spanAt_eq_some.mp ha
    exact ⟨a, ha, hva, rfl⟩
  · rintro ⟨a, ha, hva, rfl⟩
    exact ⟨a, h.spanAt_eq_some.mpr ⟨ha, hva⟩, rfl⟩

theorem hostAddr_of_holds (h : Placed env s.spans) (ha : a ∈ s.spans) (hva : a.Holds va) :
    s.hostAddr va = some (a.host + (va - a.guestBase)) :=
  h.hostAddr_eq_some.mpr ⟨a, ha, hva, rfl⟩

theorem hostAddr_eq_none (h : Placed env s.spans) :
    s.hostAddr va = none ↔ ∀ a ∈ s.spans, ¬ a.Holds va := by
  rw [hostAddr, Option.map_eq_none_iff, h.spanAt_eq_none]

theorem hostAddr_isSome (h : Placed env s.spans) :
    (s.hostAddr va).isSome = true ↔ ∃ a ∈ s.spans, a.Holds va := by
  rw [Option.isSome_iff_exists]
  simp only [h.hostAddr_eq_some]
  constructor
  · rintro ⟨p, a, ha, hva, -⟩
    exact ⟨a, ha, hva⟩
  · rintro ⟨a, ha, hva⟩
    exact ⟨_, a, ha, hva, rfl⟩

/-- **No two guest addresses share a host address.** -/
theorem hostAddr_inj (h : Placed env s.spans) {y : ℕ} (hx : s.hostAddr x = some p)
    (hy : s.hostAddr y = some p) : x = y := by
  obtain ⟨a, ha, hxa, rfl⟩ := h.hostAddr_eq_some.mp hx
  obtain ⟨b, hb, hyb, heq⟩ := h.hostAddr_eq_some.mp hy
  have : a = b := h.eq_of_owns ha hb (hxa.owns env) (heq ▸ hyb.owns env)
  subst this
  obtain ⟨hx1, -⟩ := hxa
  obtain ⟨hy1, -⟩ := hyb
  omega

/-- An arena holds all of a page or none of it. -/
theorem holds_of_page_eq {l : List HostSpan} (h : Placed env l) (ha : a ∈ l) (hva : a.Holds va)
    (hpg : x / 0x1000 = va / 0x1000) : a.Holds x := by
  obtain ⟨hb, hz⟩ := h.aligned a ha
  obtain ⟨h1, h2⟩ := hva
  exact ⟨by omega, by omega⟩

/-- **The addresses of a page are contiguous on the host.** -/
theorem hostAddr_add (h : Placed env s.spans) (hp : s.hostAddr va = some p) {i : ℕ}
    (hi : va % 0x1000 + i < 0x1000) : s.hostAddr (va + i) = some (p + i) := by
  obtain ⟨a, ha, hva, rfl⟩ := h.hostAddr_eq_some.mp hp
  have := h.holds_of_page_eq ha hva (x := va + i) (by omega)
  rw [h.hostAddr_of_holds ha this]
  have := hva.1
  congr 1
  omega

theorem writePtr_eq (h : Placed env s.spans) (va : ℕ) : s.writePtr va = s.hostAddr va := by
  unfold writePtr hostAddr spanAt
  cases hf : s.findVa va with
  | none => rfl
  | some b =>
    obtain ⟨hb, hva⟩ := h.spanAt_eq_some.mp (show s.spanAt va = some b.toHostSpan by
      simp [spanAt, hf])
    have h0 := (h.based _ hb).1
    obtain ⟨h1, h2⟩ := hva
    dsimp only
    rw [if_neg (by omega), if_neg (by omega)]
    rfl

theorem pageDataPtr_eq (h : Placed env s.spans) (pkey : ℕ) :
    s.pageDataPtr pkey = s.hostAddr (pkey * 0x1000) := by
  unfold pageDataPtr
  by_cases hlt : pkey * 0x1000 < 2 ^ 64
  · rw [satMul_of_lt hlt]
    unfold hostAddr spanAt
    cases hf : s.findVa (pkey * 0x1000) with
    | none => rfl
    | some b =>
      obtain ⟨hb, hva⟩ := h.spanAt_eq_some.mp
        (show s.spanAt (pkey * 0x1000) = some b.toHostSpan by simp [spanAt, hf])
      have h0 := (h.based _ hb).1
      have hc := (h.containsVa_iff hb).mpr hva
      obtain ⟨h1, h2⟩ := hva
      simp only [HostSpan.pageDataPtr, satMul_of_lt hlt, hc, Bool.true_eq_false, or_false]
      rw [if_neg (by omega), if_neg (by omega)]
      rfl
  · -- past the top there is no arena, whether the product sticks or not
    have hnone (y : ℕ) (hy : 2 ^ 64 - 1 ≤ y) : s.spanAt y = none :=
      h.spanAt_eq_none.mpr fun a ha hh => by
        have := h.bounded a ha
        have := hh.2
        omega
    have hsat : satMul pkey 0x1000 = 2 ^ 64 - 1 := by
      unfold satMul
      omega
    have hf : s.findVa (2 ^ 64 - 1) = none := by
      have := hnone (2 ^ 64 - 1) le_rfl
      rwa [spanAt, Option.map_eq_none_iff] at this
    rw [hsat, hf, hostAddr, hnone _ (by omega)]
    rfl

theorem arenaGuestBaseForVa_eq (va : ℕ) :
    s.arenaGuestBaseForVa va = (s.spanAt va).map HostSpan.guestBase := by
  unfold arenaGuestBaseForVa spanAt
  rw [Option.map_map]
  rfl

theorem arenaHostBaseForVa_eq (h : Placed env s.spans) (va : ℕ) :
    s.arenaHostBaseForVa va = (s.spanAt va).map HostSpan.host := by
  unfold arenaHostBaseForVa spanAt
  cases hf : s.findVa va with
  | none => rfl
  | some b =>
    obtain ⟨hb, -⟩ := h.spanAt_eq_some.mp (show s.spanAt va = some b.toHostSpan by
      simp [spanAt, hf])
    have h0 := (h.based _ hb).1
    dsimp only
    rw [if_neg (by omega)]
    rfl

theorem anyOverlap_eq_false (h : Placed env s.spans) {lo hi : ℕ} :
    s.anyOverlap lo hi = false ↔ ∀ a ∈ s.spans, hi ≤ a.guestBase ∨ a.guestBase + a.size ≤ lo := by
  rw [anyOverlap, List.any_eq_false, spans, List.forall_mem_map]
  refine forall₂_congr fun b hb => ?_
  rw [decide_eq_true_eq, h.guestEnd_eq (List.mem_map_of_mem hb)]
  omega

end Placed

end ArenaSet

end Wie
