import Mathlib.Tactic.Positivity
import Wie.Lib.Word
import Wie.Mem.Protect

/-!
# The host under the arenas

What the emulator asks of its own operating system: anonymous mappings, page protection, and plain
loads and stores. Memory is a function from host addresses to bytes; protection is kept per host
page, and a page without one is not mapped.

What `mmap` answers is not the emulator's choice, so the state carries a stream of answers. An
answer is honoured only if it can be one: a fresh, page-aligned, non-null place. Any other answer is
a failed call, so a stream may let any call fail.

A load or store that the protection denies ends the process. It is neither a result nor an error,
and `Outcome` keeps it apart from both.

## Main definitions

* `HostEnv`, `HostProt`, `Host` — the page size, a page's protection, the state
* `Host.mmap`, `munmap`, `mprotect`, `store`, `load` — the operations
* `Outcome` — a result, an error, or the end of the process

## Main results

* `Host.mmap_eq_some` — what a successful mapping is
* `Host.store_eq_some`, `Host.load_eq_some` — accesses succeed on permitted pages
-/

namespace Wie

/-- What stays fixed of the host: the page size, and whether protection is mirrored to it
(`WIE_MPROTECT`, on by default). -/
structure HostEnv where
  /-- The size of a host page. -/
  pageSize : ℕ
  /-- A host page is a power of two of guest pages. -/
  pageSize_eq : ∃ k, pageSize = 0x1000 * 2 ^ k
  /-- Whether `mprotect` is used. -/
  mprotectEnabled : Bool

theorem HostEnv.pageSize_pos (env : HostEnv) : 0 < env.pageSize := by
  obtain ⟨k, hk⟩ := env.pageSize_eq
  rw [hk]
  positivity

theorem HostEnv.page_dvd (env : HostEnv) : 0x1000 ∣ env.pageSize := by
  obtain ⟨k, hk⟩ := env.pageSize_eq
  exact ⟨2 ^ k, hk⟩

/-- 4 KiB pages, as on x86-64, with `mprotect` in use. -/
def HostEnv.fourK : HostEnv := ⟨0x1000, ⟨0, rfl⟩, true⟩

/-- The protection of a mapped host page. -/
structure HostProt where
  /-- Loads are permitted. -/
  r : Bool
  /-- Stores are permitted. -/
  w : Bool
  deriving DecidableEq, Repr

/-- `PROT_READ | PROT_WRITE`. -/
def HostProt.rw : HostProt := ⟨true, true⟩

/-- `PROT_READ`. -/
def HostProt.ro : HostProt := ⟨true, false⟩

/-- The host: memory, protection per page, and the answers to the `mmap` calls still to come. -/
structure Host where
  /-- The byte at each host address. -/
  mem : ℕ → UInt8
  /-- The protection of each host page; `none` when it is not mapped. -/
  prot : ℕ → Option HostProt
  /-- What the `n`-th `mmap` call returns, if the place is free. -/
  answers : ℕ → Option ℕ
  /-- How many `mmap` calls were made. -/
  calls : ℕ

/-- A host with nothing mapped that puts one mapping every 256 MiB. -/
def Host.roomy : Host := ⟨fun _ => 0, fun _ => none, fun n => some (0x10000000 * (n + 1)), 0⟩

/-- How a call into the emulator ends. -/
inductive Outcome (α : Type) where
  /-- It returns a value. -/
  | ok (a : α)
  /-- It returns an error. -/
  | error (e : CpuError)
  /-- The host denies an access and ends the process. -/
  | crash
  deriving DecidableEq, Repr

/-- A result or an error is an outcome. -/
def Outcome.ofExcept {α : Type} : Except CpuError α → Outcome α
  | .ok a => .ok a
  | .error e => .error e

namespace Host

/-- How many host pages `size` bytes take. -/
def pageCount (env : HostEnv) (size : ℕ) : ℕ := (size + env.pageSize - 1) / env.pageSize

/-- The place `p` can be mapped: non-null, aligned, inside the address space, and none of its
pages is mapped yet. -/
def isFresh (env : HostEnv) (h : Host) (p size : ℕ) : Bool :=
  decide (0 < p) && decide (p % env.pageSize = 0) &&
    decide (p + pageCount env size * env.pageSize < 2 ^ 64) &&
    (List.range (pageCount env size)).all fun i => (h.prot (p / env.pageSize + i)).isNone

/-- `mmap`: an anonymous private mapping of `size` bytes at a place of the host's choice, zeroed
and open for reading and writing. -/
def mmap (env : HostEnv) (h : Host) (size : ℕ) : Option ℕ × Host :=
  match h.answers h.calls with
  | none => (none, { h with calls := h.calls + 1 })
  | some p =>
    if h.isFresh env p size then
      (some p,
        { mem := fun a => if p ≤ a ∧ a < p + pageCount env size * env.pageSize then 0 else h.mem a
          prot := fun f =>
            if p / env.pageSize ≤ f ∧ f < p / env.pageSize + pageCount env size then some .rw
            else h.prot f
          answers := h.answers
          calls := h.calls + 1 })
    else (none, { h with calls := h.calls + 1 })

/-- `munmap` of the `size` bytes at `p`. -/
def munmap (env : HostEnv) (h : Host) (p size : ℕ) : Host :=
  { h with prot := fun f =>
      if p / env.pageSize ≤ f ∧ f < p / env.pageSize + pageCount env size then none
      else h.prot f }

/-- `mprotect` of the `size` bytes at `p`. -/
def mprotect (env : HostEnv) (h : Host) (p size : ℕ) (prot : HostProt) : Host :=
  { h with prot := fun f =>
      if p / env.pageSize ≤ f ∧ f < p / env.pageSize + pageCount env size then some prot
      else h.prot f }

/-- Every host page that `[p, p + len)` touches has a protection satisfying `ok`. -/
def pagesSatisfy (env : HostEnv) (h : Host) (ok : HostProt → Bool) (p len : ℕ) : Bool :=
  (List.range ((p + len - 1) / env.pageSize + 1 - p / env.pageSize)).all fun i =>
    (h.prot (p / env.pageSize + i)).any ok

/-- The host with `bytes` at `p`. -/
def overwrite (h : Host) (p : ℕ) (bytes : List UInt8) : Host :=
  { h with mem := fun a =>
      if p ≤ a ∧ a < p + bytes.length then bytes.getD (a - p) 0 else h.mem a }

/-- Store `bytes` at `p`, if the host permits it. -/
def store (env : HostEnv) (h : Host) (p : ℕ) (bytes : List UInt8) : Option Host :=
  if h.pagesSatisfy env HostProt.w p bytes.length then some (h.overwrite p bytes) else none

/-- Load `len` bytes from `p`, if the host permits it. -/
def load (env : HostEnv) (h : Host) (p len : ℕ) : Option (List UInt8) :=
  if h.pagesSatisfy env HostProt.r p len then
    some ((List.range len).map fun i => h.mem (p + i))
  else none

/-! ### What the operations do -/

variable {env : HostEnv} {h h' : Host} {p size len : ℕ}

/-- The host page of `x` is one of the `pageCount` pages from `p` on. -/
theorem page_mem_iff (hp : p % env.pageSize = 0) (x : ℕ) :
    (p / env.pageSize ≤ x / env.pageSize ∧
      x / env.pageSize < p / env.pageSize + pageCount env size) ↔
      p ≤ x ∧ x < p + pageCount env size * env.pageSize := by
  have hps := env.pageSize_pos
  have hp' : p / env.pageSize * env.pageSize = p := Nat.div_mul_cancel (Nat.dvd_of_mod_eq_zero hp)
  rw [Nat.le_div_iff_mul_le hps, hp', Nat.div_lt_iff_lt_mul hps, Nat.add_mul, hp']

theorem le_pageCount_mul (env : HostEnv) (size : ℕ) : size ≤ pageCount env size * env.pageSize := by
  have hps := env.pageSize_pos
  have := Nat.lt_div_mul_add hps (a := size + env.pageSize - 1)
  unfold pageCount
  omega

/-- A successful `mmap` returns a fresh place, zeroed and open; nothing else changes. -/
theorem mmap_eq_some (hm : h.mmap env size = (some p, h')) :
    0 < p ∧ p % env.pageSize = 0 ∧ p + pageCount env size * env.pageSize < 2 ^ 64 ∧
      (∀ x, p ≤ x → x < p + pageCount env size * env.pageSize →
        h.prot (x / env.pageSize) = none ∧ h'.prot (x / env.pageSize) = some .rw ∧
          h'.mem x = 0) ∧
      (∀ x, ¬ (p ≤ x ∧ x < p + pageCount env size * env.pageSize) →
        h'.prot (x / env.pageSize) = h.prot (x / env.pageSize) ∧ h'.mem x = h.mem x) := by
  unfold mmap at hm
  split at hm
  · cases hm
  · rename_i q hq
    split at hm
    · rename_i hfresh
      cases hm
      simp only [isFresh, Bool.and_eq_true, decide_eq_true_eq, List.all_eq_true,
        List.mem_range, Option.isNone_iff_eq_none] at hfresh
      obtain ⟨⟨⟨h0, ha⟩, ht⟩, hn⟩ := hfresh
      refine ⟨h0, ha, ht, fun x h1 h2 => ⟨?_, ?_, ?_⟩, fun x hx => ⟨?_, ?_⟩⟩
      · have hpg := (page_mem_iff ha x).mpr ⟨h1, h2⟩
        have := hn (x / env.pageSize - p / env.pageSize) (by omega)
        rwa [show p / env.pageSize + (x / env.pageSize - p / env.pageSize) = x / env.pageSize by
          omega] at this
      · exact if_pos ((page_mem_iff ha x).mpr ⟨h1, h2⟩)
      · exact if_pos ⟨h1, h2⟩
      · exact if_neg fun hc => hx ((page_mem_iff ha x).mp hc)
      · exact if_neg hx
    · cases hm

/-- A failed `mmap` changes nothing that can be observed. -/
theorem mmap_eq_none (hm : h.mmap env size = (none, h')) : h'.mem = h.mem ∧ h'.prot = h.prot := by
  unfold mmap at hm
  split at hm
  · cases hm
    exact ⟨rfl, rfl⟩
  · split at hm
    · cases hm
    · cases hm
      exact ⟨rfl, rfl⟩

theorem munmap_prot (hp : p % env.pageSize = 0) {x : ℕ}
    (hx : ¬ (p ≤ x ∧ x < p + pageCount env size * env.pageSize)) :
    (h.munmap env p size).prot (x / env.pageSize) = h.prot (x / env.pageSize) :=
  if_neg fun hc => hx ((page_mem_iff hp x).mp hc)

@[simp] theorem munmap_mem : (h.munmap env p size).mem = h.mem := rfl

@[simp] theorem mprotect_mem {prot : HostProt} : (h.mprotect env p size prot).mem = h.mem := rfl

/-- `mprotect` of one page. -/
theorem mprotect_prot {prot : HostProt} (f : ℕ) :
    (h.mprotect env p env.pageSize prot).prot f =
      if f = p / env.pageSize then some prot else h.prot f := by
  have hps := env.pageSize_pos
  have hone : pageCount env env.pageSize = 1 := by
    unfold pageCount
    rw [Nat.div_eq_iff hps]
    omega
  unfold mprotect
  rw [hone]
  dsimp only
  congr 1
  exact propext (by omega)

theorem pagesSatisfy_iff {ok : HostProt → Bool} (hlen : 0 < len) :
    h.pagesSatisfy env ok p len = true ↔
      ∀ x, p ≤ x → x < p + len → ∃ q, h.prot (x / env.pageSize) = some q ∧ ok q = true := by
  have hps := env.pageSize_pos
  simp only [pagesSatisfy, List.all_eq_true, List.mem_range, Option.any_eq_true]
  constructor
  · intro hq x h1 h2
    have h3 : p / env.pageSize ≤ x / env.pageSize := Nat.div_le_div_right h1
    have h4 : x / env.pageSize ≤ (p + len - 1) / env.pageSize := Nat.div_le_div_right (by omega)
    have := hq (x / env.pageSize - p / env.pageSize) (by omega)
    rwa [show p / env.pageSize + (x / env.pageSize - p / env.pageSize) = x / env.pageSize by
      omega] at this
  · intro hq i hi
    -- the first address of `[p, p + len)` in the page
    set f := p / env.pageSize + i with hf
    have hle : f * env.pageSize ≤ p + len - 1 := by
      rw [← Nat.le_div_iff_mul_le hps]
      omega
    have hp1 : p < (f + 1) * env.pageSize := by
      rw [← Nat.div_lt_iff_lt_mul hps]
      omega
    have hmul : (f + 1) * env.pageSize = f * env.pageSize + env.pageSize :=
      Nat.succ_mul _ _
    have hdiv : max p (f * env.pageSize) / env.pageSize = f := by
      rw [Nat.div_eq_iff hps]
      omega
    have := hq (max p (f * env.pageSize)) (le_max_left _ _) (by omega)
    rwa [hdiv] at this

/-- A store succeeds when every page it touches is mapped for writing, and changes exactly its
bytes. -/
theorem store_eq_some {bytes : List UInt8} (hlen : 0 < bytes.length) :
    h.store env p bytes = some h' ↔
      (∀ x, p ≤ x → x < p + bytes.length →
        ∃ q, h.prot (x / env.pageSize) = some q ∧ q.w = true) ∧
      h' = h.overwrite p bytes := by
  unfold store
  rw [← pagesSatisfy_iff hlen]
  cases h.pagesSatisfy env HostProt.w p bytes.length with
  | true =>
    simp only [if_true, Option.some.injEq, true_and]
    exact eq_comm
  | false => simp

/-- A load succeeds when every page it touches is mapped for reading, and returns the bytes. -/
theorem load_eq_some {bytes : List UInt8} (hlen : 0 < len) :
    h.load env p len = some bytes ↔
      (∀ x, p ≤ x → x < p + len → ∃ q, h.prot (x / env.pageSize) = some q ∧ q.r = true) ∧
      bytes = (List.range len).map fun i => h.mem (p + i) := by
  unfold load
  rw [← pagesSatisfy_iff hlen]
  cases h.pagesSatisfy env HostProt.r p len with
  | true =>
    simp only [if_true, Option.some.injEq, true_and]
    exact eq_comm
  | false => simp

end Host

end Wie
