import Wie.Lib.MemProg
import Wie.Mem.Fetch
import Wie.Mem.FlatView
import Wie.Mem.Pins

/-!
# Spans of host memory

The interpreter comes to guest memory through the checked accesses, except where it asks for a host
pointer to a span and works on host memory directly: atomic additions, and long fills and copies. A
span is given out after the permission check, and never for writing where code may run.

Here guest memory becomes the memory of programs: what it answers to each of their questions.

## Main definitions

* `GuestMemory.hostSpan` — a host pointer to a span
* `GuestMemory.device` — guest memory as the memory of programs

## Main results

* `GuestMemory.Inv.hostSpan_spec` — what a span guarantees
* `GuestMemory.Inv.device_write`, `GuestMemory.Inv.device_read` — the checked accesses
* `GuestMemory.Inv.device_fetchAdd`, `GuestMemory.Inv.device_fill`, `GuestMemory.Inv.device_copy` —
  what is done through spans is a read or a write
-/

namespace Wie

/-- What a translation permits. -/
def PageTlbEntry.allows (e : PageTlbEntry) (write : Bool) : Bool :=
  if write then e.allowW else e.allowR

namespace GuestMemory

/-! ### Spans -/

/-- The loop of `range_allows_execute`; every round moves at least one page on. -/
def executeLoop (pages : PageMap) (last : ℕ) : ℕ → ℕ → Bool
  | 0, _ => false
  | fuel + 1, page =>
    if page ≤ last then
      match pages.lookup page with
      | some run =>
        if run.state = .committed ∧ Protect.allowsExecute run.protect = true then true
        else executeLoop pages last fuel (if run.endPage ≤ page then page + 1 else run.endPage)
      | none => executeLoop pages last fuel (page + 1)
    else false

/-- `range_allows_execute`: whether code may run in some page of a range. -/
def rangeAllowsExecute (m : GuestMemory) (address len : ℕ) : Bool :=
  if len = 0 then false
  else
    match checkedAdd address len with
    | none => true
    | some stop =>
      executeLoop m.pages ((stop - 1) / 0x1000) ((stop - 1) / 0x1000 + 1 - address / 0x1000)
        (address / 0x1000)

/-- The access that a span is asked for. -/
def spanKind (write : Bool) : AccessKind := if write then .write else .read

/-- The host pointer of `host_span` when the access is permitted. -/
def spanPtr (m : GuestMemory) (address len : ℕ) (write : Bool) : Option ℕ :=
  if write && m.rangeAllowsExecute address len then none
  else if address % 0x1000 + len ≤ 0x1000 then
    match m.pageTlbEntry (address / 0x1000) with
    | none => none
    | some entry =>
      if entry.allows write then some (entry.host + address % 0x1000)
      else none
  else
    match m.backend.arenaGuestBaseForVa address,
      m.backend.arenaGuestBaseForVa (address + len - 1),
      m.backend.arenaHostBaseForVa address with
    | some guestBase, some guestBaseLast, some hostBase =>
      if guestBase ≠ guestBaseLast ∨ hostBase = 0 ∨ address < guestBase then none
      else some (hostBase + (address - guestBase))
    | _, _, _ => none

/-- `host_span`. Nothing comes in between, so the generation is what it was at the start. -/
def hostSpan (m : GuestMemory) (address len : ℕ) (write : Bool) : Option ℕ × GuestMemory :=
  if len = 0 ∨ 2 ^ 64 ≤ address + len then (none, m)
  else
    match m.pages.checkAccess address len (spanKind write) with
    | (.error _, pages) => (none, { m with pages := pages })
    | (.ok (), pages) => (spanPtr { m with pages := pages } address len write,
        { m with pages := pages })

/-- `host_ranges_overlap`. -/
def hostRangesOverlap (a b len : ℕ) : Bool :=
  len ≠ 0 && a ≤ satAdd b (len - 1) && b ≤ satAdd a (len - 1)

/-! ### The memory of programs -/

/-- A result, an error that says no more than that an access is denied, or the end. -/
def answer {α : Type} : Outcome α × GuestMemory → Option (Option α × GuestMemory)
  | (.ok v, m) => some (some v, m)
  | (.error _, m) => some (none, m)
  | (.crash, _) => none

/-- Host memory with bytes stored through a pointer. -/
def pokeHost (env : HostEnv) (m : GuestMemory) (p : ℕ) (bytes : List UInt8) : Option GuestMemory :=
  (m.backend.host.store env p bytes).map fun host =>
    { m with backend := { m.backend with host := host } }

/-- An addition in one step, where a span of host memory can be had. -/
def fetchAdd (env : HostEnv) (m : GuestMemory) (address len v : ℕ) :
    Option (Option ℕ × GuestMemory) :=
  match m.hostSpan address len true with
  | (none, m) => some (none, m)
  | (some p, m) =>
    match m.backend.host.load env p len with
    | none => none
    | some bytes => (m.pokeHost env p (toLe len (fromLe bytes + v))).map fun m =>
        (some (fromLe bytes), m)

/-- A fill through a span of host memory, where one can be had. -/
def fillSpan (env : HostEnv) (m : GuestMemory) (address : ℕ) (bytes : List UInt8) :
    Option (Bool × GuestMemory) :=
  match m.hostSpan address bytes.length true with
  | (none, m) => some (false, m)
  | (some p, m) => (m.pokeHost env p bytes).map fun m => (true, m)

/-- A copy through two spans of host memory, where they can be had and do not overlap. -/
def copySpan (env : HostEnv) (m : GuestMemory) (src dst len : ℕ) : Option (Bool × GuestMemory) :=
  let (s, m) := m.hostSpan src len false
  let (d, m) := m.hostSpan dst len true
  match s, d with
  | some s, some d =>
    if hostRangesOverlap s d len then some (false, m)
    else
      match m.backend.host.load env s len with
      | none => none
      | some bytes => (m.pokeHost env d bytes).map fun m => (true, m)
  | _, _ => some (false, m)

/-- **Guest memory as the memory of programs.** -/
def device (env : HostEnv) : MemDevice GuestMemory where
  read m a n := answer (m.read env a n)
  write m a bytes := (answer (m.write env a bytes)).map fun v => (v.1.isSome, v.2)
  fetchAdd m a n v := m.fetchAdd env a n v
  fill m a bytes := m.fillSpan env a bytes
  copy m src dst n := m.copySpan env src dst n

/-! ### What a span guarantees -/

section spans

variable {env : HostEnv} {m m₁ m₂ : GuestMemory} {a n p : ℕ} {w : Bool} {bytes : List UInt8}

theorem Same.trans (h₁ : Same m m₁) (h₂ : Same m₁ m₂) : Same m m₂ where
  backend := h₂.backend.trans h₁.backend
  runs := h₂.runs.trans h₁.runs
  valid := h₂.valid
  vad := h₂.vad.trans h₁.vad
  generation := h₂.generation.trans h₁.generation

theorem Same.symm (hv : m.pages.Valid) (h : Same m m₁) : Same m₁ m where
  backend := h.backend.symm
  runs := h.runs.symm
  valid := hv
  vad := h.vad.symm
  generation := h.generation.symm

theorem Same.granted (h : Same m m₁) (kind : AccessKind) (a n : ℕ) :
    m₁.Granted kind a n ↔ m.Granted kind a n := by
  rw [Granted, Granted, h.table]

theorem Same.flat (h : Same m m₁) : m₁.flat = m.flat := by
  simp only [GuestMemory.flat, h.table, h.backend]

/-- A write to a memory that is the same. -/
theorem Same.wrote (h : Same m m₁) (hw : Wrote env m₁ a bytes m₂) : Wrote env m a bytes m₂ := by
  have ht := h.table
  have hb := h.backend
  refine ⟨?_, hb ▸ hw.backend, hb ▸ hw.writable, hw.runs.trans h.runs, hw.valid,
    hw.vad.trans h.vad, hw.generation.trans h.generation⟩
  rw [← ht]
  exact hw.granted

/-- The bytes of a span are contiguous on the host. -/
theorem Inv.spanPtr_spec (h : Inv env m) (hp : m.spanPtr a n w = some p) {i : ℕ} (hi : i < n) :
    m.backend.hostAddr (a + i) = some (p + i) := by
  rw [spanPtr] at hp
  split_ifs at hp with hx hpage
  · -- one page
    cases he : m.pageTlbEntry (a / 0x1000) with
    | none =>
      rw [he] at hp
      cases hp
    | some entry =>
      rw [he] at hp
      dsimp only at hp
      have hhost : m.backend.hostAddr (a / 0x1000 * 0x1000) = some entry.host := by
        rw [pageTlbEntry] at he
        split at he
        · cases he
        · rw [h.placed.pageDataPtr_eq] at he
          split at he
          · cases he
          · rename_i host hh
            cases he
            exact hh
      split_ifs at hp
      cases hp
      have hadd := h.placed.hostAddr_add hhost (i := a % 0x1000 + i) (by omega)
      rwa [show a / 0x1000 * 0x1000 + (a % 0x1000 + i) = a + i by omega, ← Nat.add_assoc] at hadd
  · -- one arena
    rw [ArenaSet.Placed.arenaGuestBaseForVa_eq, ArenaSet.Placed.arenaGuestBaseForVa_eq,
      h.placed.arenaHostBaseForVa_eq] at hp
    split at hp
    · rename_i guestBase guestBaseLast hostBase hb hl hh
      obtain ⟨s, hs, rfl⟩ := Option.map_eq_some_iff.mp hb
      obtain ⟨t, ht, rfl⟩ := Option.map_eq_some_iff.mp hl
      rw [hs, Option.map_some, Option.some.injEq] at hh
      obtain ⟨hsm, hsx⟩ := h.placed.spanAt_eq_some.mp hs
      obtain ⟨htm, htx⟩ := h.placed.spanAt_eq_some.mp ht
      split_ifs at hp with hne
      obtain rfl : s = t := h.placed.extents.eq_of_lo_eq hsm htm (by omega)
      cases hp
      obtain ⟨h1, h2⟩ := hsx
      obtain ⟨h3, h4⟩ := htx
      rw [h.placed.hostAddr_of_holds hsm ⟨by omega, by omega⟩, hh]
      congr 1
      omega
    · cases hp

/-- **What a span guarantees**: the access to all of it is permitted, and it is contiguous on the
host. -/
theorem Inv.hostSpan_spec (h : Inv env m) (a n : ℕ) (w : Bool) :
    Same m (m.hostSpan a n w).2 ∧ ∀ p, (m.hostSpan a n w).1 = some p →
      0 < n ∧ m.Granted (spanKind w) a n ∧ ∀ i < n, m.backend.hostAddr (a + i) = some (p + i) := by
  rw [hostSpan]
  split_ifs with hn
  · exact ⟨.refl h.pages, nofun⟩
  · have hsame := h.same_checkAccess a n (spanKind w)
    have hiff := h.checkAccess_iff a n (spanKind w)
    cases hc : m.pages.checkAccess a n (spanKind w) with
    | mk r pages =>
      rw [hc] at hsame hiff
      cases r with
      | error e => exact ⟨hsame, nofun⟩
      | ok u =>
        have hg : m.Granted (spanKind w) a n := hiff.mp rfl
        refine ⟨hsame, fun p hp => ⟨by omega, hg, fun i hi => ?_⟩⟩
        have := (hsame.inv h).spanPtr_spec hp hi
        rwa [hsame.backend] at this

/-- **A store through a span is a write.** -/
theorem Inv.wrote_pokeHost (h : Inv env m) (hpos : 0 < bytes.length)
    (hg : m.Granted .write a bytes.length)
    (haddr : ∀ i < bytes.length, m.backend.hostAddr (a + i) = some (p + i))
    (hp : m.pokeHost env p bytes = some m₁) : Wrote env m a bytes m₁ := by
  obtain ⟨host, hstore, rfl⟩ := Option.map_eq_some_iff.mp hp
  obtain ⟨hprot, rfl⟩ := (Host.store_eq_some hpos).mp hstore
  refine ⟨.inr ⟨?_, hg⟩, ⟨rfl, rfl, fun x => ?_⟩, fun x h1 h2 => ?_, rfl, h.pages, rfl, rfl⟩
  · have := h.lt_top (hg (a + bytes.length - 1) (by omega) (by omega))
    omega
  · change (m.backend.hostAddr x).map (fun q => if p ≤ q ∧ q < p + bytes.length then
      bytes.getD (q - p) 0 else m.backend.host.mem q) = _
    by_cases hx : a ≤ x ∧ x < a + bytes.length
    · have hxa := haddr (x - a) (by omega)
      rw [Nat.add_sub_of_le hx.1] at hxa
      rw [hxa, if_pos hx, Option.map_some]
      refine congrArg some ((if_pos ⟨by omega, by omega⟩).trans ?_)
      rw [Nat.add_sub_cancel_left]
    · rw [if_neg hx, ArenaSet.byte]
      cases hq : m.backend.hostAddr x with
      | none => rfl
      | some q =>
        rw [Option.map_some, Option.map_some]
        refine congrArg some (if_neg ?_)
        -- another guest address does not translate into the bytes stored
        intro hr
        have hqa := haddr (q - p) (by omega)
        rw [Nat.add_sub_of_le hr.1] at hqa
        have := h.placed.hostAddr_inj hq hqa
        omega
  · have hxa := haddr (x - a) (by omega)
    rw [Nat.add_sub_of_le h1] at hxa
    obtain ⟨q, hq, hqw⟩ := hprot (p + (x - a)) (by omega) (by omega)
    exact ⟨_, q, hxa, hq, hqw⟩

/-- **A load through a span is a read.** -/
theorem load_span (hpos : 0 < n) (haddr : ∀ i < n, m.backend.hostAddr (a + i) = some (p + i))
    (hl : m.backend.host.load env p n = some bytes) : bytes = m.flat.bytes a n := by
  obtain ⟨-, rfl⟩ := (Host.load_eq_some hpos).mp hl
  refine List.map_congr_left fun i hi => ?_
  show _ = ((m.backend.hostAddr (a + i)).map m.backend.host.mem).getD 0
  rw [haddr i (List.mem_range.mp hi)]
  rfl

end spans

/-! ### The answers -/

section answers

variable {env : HostEnv} {m m₁ : GuestMemory} {a b n v old : ℕ} {ok : Bool} {bytes : List UInt8}

theorem answer_eq_some {α : Type} {x : Outcome α × GuestMemory} {v : Option α}
    (h : answer x = some (v, m)) : x.2 = m ∧
      match v with
      | some v => x.1 = .ok v
      | none => ∃ e, x.1 = .error e := by
  obtain ⟨v' | e | _, m'⟩ := x <;> cases h
  · exact ⟨rfl, rfl⟩
  · exact ⟨rfl, e, rfl⟩

/-- **A read changes nothing**, and is a load of the flat memory. -/
theorem Inv.device_read (h : Inv env m) {v : Option (List UInt8)}
    (hr : (device env).read m a n = some (v, m₁)) : Same m m₁ ∧ v = m.flat.load a n := by
  obtain ⟨rfl, hv⟩ := answer_eq_some hr
  have hsame : Same m (m.read env a n).2 := by
    have hs := h.same_checkAccess a n .read
    rw [GuestMemory.read]
    cases hc : m.pages.checkAccess a n .read with
    | mk r pages =>
      rw [hc] at hs
      cases r <;> exact hs
  refine ⟨hsame, ?_⟩
  cases v with
  | some v => exact ((h.read_flat a n v).mp hv).symm
  | none =>
    obtain ⟨e, he⟩ := hv
    rw [eq_comm, Option.eq_none_iff_forall_ne_some]
    intro v hv
    have hok := (h.read_flat a n v).mpr hv
    rw [he] at hok
    cases hok

/-- A read is answered. -/
theorem Inv.exists_device_read (h : Inv env m) (a n : ℕ) :
    ∃ m', (device env).read m a n = some (m.flat.load a n, m') := by
  have hans : ∃ v m', (device env).read m a n = some (v, m') := by
    show ∃ v m', answer (m.read env a n) = some (v, m')
    have hiff := h.checkAccess_iff a n .read
    have hok := h.read_isOk a n
    rw [GuestMemory.read] at hok ⊢
    cases hc : m.pages.checkAccess a n .read with
    | mk r pages =>
      rw [hc] at hiff hok
      cases r with
      | error e => exact ⟨_, _, rfl⟩
      | ok u =>
        obtain ⟨v, hv⟩ := hok.mpr (hiff.mp rfl)
        dsimp only at hv ⊢
        rw [hv]
        exact ⟨_, _, rfl⟩
  obtain ⟨v, m', hv⟩ := hans
  rw [← (h.device_read hv).2]
  exact ⟨m', hv⟩

theorem exists_device_read_iff (h : Inv env m) (v : Option (List UInt8)) :
    (∃ m', (device env).read m a n = some (v, m')) ↔ v = m.flat.load a n := by
  constructor
  · rintro ⟨m', hr⟩
    exact (h.device_read hr).2
  · rintro rfl
    exact h.exists_device_read a n

theorem load_eq_none_iff : m.flat.load a n = none ↔ ¬m.Granted .read a n := by
  classical
  rw [load_flat]
  split
  · rename_i hg
    exact iff_of_false nofun (not_not_intro hg)
  · rename_i hg
    exact iff_of_true rfl hg

/-- **A write is all or nothing.** -/
theorem Inv.device_write (h : Inv env m) (hw : (device env).write m a bytes = some (ok, m₁)) :
    (ok = true ∧ Wrote env m a bytes m₁) ∨
      (ok = false ∧ Same m m₁ ∧ ¬m.Granted .write a bytes.length) := by
  obtain ⟨⟨v, m'⟩, ha, heq⟩ := Option.map_eq_some_iff.mp hw
  cases heq
  obtain ⟨rfl, hv⟩ := answer_eq_some ha
  rcases h.change_write a bytes with ⟨e, he, hs, hn⟩ | ⟨hcr, -⟩ | ⟨hok, hwrote⟩
  · cases v with
    | some v => cases he.symm.trans hv
    | none =>
      refine .inr ⟨rfl, hs, fun hg => hn ?_⟩
      rw [← List.length_eq_zero_iff, ← h.pages.checkAccess_eq_ok, h.checkAccess_iff]
      exact hg
  · cases v with
    | some v => cases hcr.symm.trans hv
    | none =>
      obtain ⟨e, he⟩ := hv
      cases hcr.symm.trans he
  · cases v with
    | some v => exact .inl ⟨rfl, hwrote⟩
    | none =>
      obtain ⟨e, he⟩ := hv
      cases hok.symm.trans he

/-- When a write is denied. -/
theorem Inv.device_write_denied_iff (h : Inv env m) :
    (∃ m', (device env).write m a bytes = some (false, m')) ↔
      ¬m.Granted .write a bytes.length := by
  constructor
  · rintro ⟨m', hw⟩
    rcases h.device_write hw with ⟨⟨⟩, -⟩ | ⟨-, -, hn⟩
    exact hn
  · intro hn
    have hiff := h.checkAccess_iff a bytes.length .write
    show ∃ m', (answer (m.write env a bytes)).map _ = some (false, m')
    rw [GuestMemory.write]
    cases hc : m.pages.checkAccess a bytes.length .write with
    | mk r pages =>
      rw [hc] at hiff
      cases r with
      | error e => exact ⟨_, rfl⟩
      | ok u => exact absurd (hiff.mp rfl) hn

/-- **An addition in one step** is a read and a write, or is not offered. -/
theorem Inv.device_fetchAdd (h : Inv env m) {r : Option ℕ}
    (hf : (device env).fetchAdd m a n v = some (r, m₁)) :
    (r = none ∧ Same m m₁) ∨ (r = some (m.flat.get a n) ∧
      Wrote env m a (toLe n (m.flat.get a n + v)) m₁) := by
  obtain ⟨hsame, hspan⟩ := h.hostSpan_spec a n true
  have hf : m.fetchAdd env a n v = some (r, m₁) := hf
  rw [fetchAdd] at hf
  cases hs : m.hostSpan a n true with
  | mk q m' =>
    rw [hs] at hf hsame hspan
    cases q with
    | none =>
      cases hf
      exact .inl ⟨rfl, hsame⟩
    | some p =>
      dsimp only at hf
      obtain ⟨hpos, hg, haddr⟩ := hspan p rfl
      have hinv := hsame.inv h
      rw [← hsame.backend] at haddr
      split at hf
      · cases hf
      · rename_i bytes hl
        obtain ⟨m'', hpoke, heq⟩ := Option.map_eq_some_iff.mp hf
        cases heq
        have hbytes := load_span hpos haddr hl
        rw [hsame.flat] at hbytes
        have hlen : (toLe n (fromLe bytes + v)).length = n := length_toLe ..
        refine .inr ⟨by rw [hbytes]; rfl, hsame.wrote ?_⟩
        rw [Flat.get, ← hbytes]
        refine hinv.wrote_pokeHost (by omega) ?_ ?_ hpoke
        · rw [hlen, hsame.granted]
          exact hg
        · rw [hlen]
          exact haddr

/-- **A fill** is a write, or is not offered. -/
theorem Inv.device_fill (h : Inv env m) (hf : (device env).fill m a bytes = some (ok, m₁)) :
    (ok = false ∧ Same m m₁) ∨ (ok = true ∧ Wrote env m a bytes m₁) := by
  obtain ⟨hsame, hspan⟩ := h.hostSpan_spec a bytes.length true
  have hf : m.fillSpan env a bytes = some (ok, m₁) := hf
  rw [fillSpan] at hf
  cases hs : m.hostSpan a bytes.length true with
  | mk q m' =>
    rw [hs] at hf hsame hspan
    cases q with
    | none =>
      cases hf
      exact .inl ⟨rfl, hsame⟩
    | some p =>
      obtain ⟨hpos, hg, haddr⟩ := hspan p rfl
      rw [← hsame.backend] at haddr
      obtain ⟨m'', hpoke, heq⟩ := Option.map_eq_some_iff.mp hf
      cases heq
      exact .inr ⟨rfl, hsame.wrote ((hsame.inv h).wrote_pokeHost hpos
        ((hsame.granted ..).mpr hg) haddr hpoke)⟩

/-- **A copy** is a read and a write, or is not offered. -/
theorem Inv.device_copy (h : Inv env m) (hf : (device env).copy m a b n = some (ok, m₁)) :
    (ok = false ∧ Same m m₁) ∨
      (ok = true ∧ m.Granted .read a n ∧ Wrote env m b (m.flat.bytes a n) m₁) := by
  obtain ⟨hsame₁, hspan₁⟩ := h.hostSpan_spec a n false
  have hf : m.copySpan env a b n = some (ok, m₁) := hf
  rw [copySpan] at hf
  cases hs : m.hostSpan a n false with
  | mk q m' =>
    rw [hs] at hf hsame₁ hspan₁
    dsimp only at hf hsame₁ hspan₁
    have hinv := hsame₁.inv h
    obtain ⟨hsame₂, hspan₂⟩ := hinv.hostSpan_spec b n true
    cases hd : m'.hostSpan b n true with
    | mk q' m'' =>
      rw [hd] at hf hsame₂ hspan₂
      dsimp only at hf hsame₂ hspan₂
      have hsame := hsame₁.trans hsame₂
      split at hf
      · rename_i s d
        obtain ⟨hpos, hgs, hsrc⟩ := hspan₁ s rfl
        obtain ⟨-, hgd, hdst⟩ := hspan₂ d rfl
        rw [← hsame.backend] at hsrc
        rw [← hsame₂.backend] at hdst
        split_ifs at hf
        · cases hf
          exact .inl ⟨rfl, hsame⟩
        · split at hf
          · cases hf
          · rename_i bytes hl
            obtain ⟨m₃, hpoke, heq⟩ := Option.map_eq_some_iff.mp hf
            cases heq
            have hbytes := load_span hpos hsrc hl
            rw [hsame.flat] at hbytes
            have hlen : bytes.length = n := by rw [hbytes, Flat.length_bytes]
            refine .inr ⟨rfl, hgs, ?_⟩
            rw [← hbytes]
            refine hsame.wrote ((hsame.inv h).wrote_pokeHost (by omega) ?_ ?_ hpoke)
            · rw [hlen, hsame₂.granted]
              exact hgd
            · rwa [hlen]
      · cases hf
        exact .inl ⟨rfl, hsame⟩

end answers

end GuestMemory

end Wie
