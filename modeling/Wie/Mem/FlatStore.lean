import Wie.Mem.Sealing

/-!
# Guest memory as a flat byte store

To the guest, memory is one byte per address, guarded by the permissions of pages. A write succeeds
as a whole or changes nothing, although it is carried out page by page through arenas that are
looked up one at a time; a read returns what was last written.

That a write is all or nothing needs two things beyond the permission check: every page in use is
backed, which is the invariant, and the host lets every granted write through, which holds in runs
of safe calls. Reads need only the first.

The values last written are carried along as a history. A page that is no longer committed forgets
its values.

## Main definitions

* `GuestMemory.lastAfter` — the values last written, after a call
* `GuestMemory.StoreReach` — the runs of safe calls, with the values last written

## Main results

* `GuestMemory.Inv.read_isOk`, `GuestMemory.Inv.read_eq` — when a read succeeds, and its result
* `GuestMemory.flat_byte_store` — writes and reads are those of a flat store
-/

namespace Wie

namespace GuestMemory

variable {env : HostEnv} {m m' : GuestMemory}

/-! ### Reading -/

/-- What is granted is below the top of the address space. -/
theorem Inv.lt_top (h : Inv env m) {kind : AccessKind} {x : ℕ}
    (hx : m.pages.table.grants kind (x / 0x1000) = true) : x + 1 < 2 ^ 64 := by
  obtain ⟨p, hp, -⟩ := PageTable.grants_iff.mp hx
  obtain ⟨a, ha, hax⟩ := h.placed.hostAddr_isSome.mp (h.backed x (by rw [hp]; simp))
  have := h.placed.bounded a ha
  have := hax.2
  omega

/-- Every page of `[address, address + len)` is committed and permits the access. -/
def Granted (m : GuestMemory) (kind : AccessKind) (address len : ℕ) : Prop :=
  ∀ x, address ≤ x → x < address + len → m.pages.table.grants kind (x / 0x1000) = true

/-- The permission check asks for the pages alone: nothing granted reaches the top. -/
theorem Inv.checkAccess_iff (h : Inv env m) (address len : ℕ) (kind : AccessKind) :
    (m.pages.checkAccess address len kind).1 = .ok () ↔ m.Granted kind address len := by
  rw [h.pages.checkAccess_eq_ok]
  constructor
  · rintro (rfl | ⟨-, hall⟩)
    · exact fun x h1 h2 => by omega
    · exact hall
  · intro hall
    rcases Nat.eq_zero_or_pos len with h0 | hpos
    · exact .inl h0
    · have := h.lt_top (hall (address + len - 1) (by omega) (by omega))
      exact .inr ⟨by omega, hall⟩

/-- What a read returns when every page permits it. -/
theorem Inv.read_eq (h : Inv env m) {address len : ℕ} (hg : m.Granted .read address len) :
    (m.read env address len).1 =
      .ok ((List.range len).map fun i => (m.backend.byte (address + i)).getD 0) := by
  have hok := (h.checkAccess_iff address len .read).mpr hg
  have hback (x : ℕ) (h1 : address ≤ x) (h2 : x < address + len) :
      (m.backend.hostAddr x).isSome = true := by
    obtain ⟨p, hp, -⟩ := PageTable.grants_iff.mp (hg x h1 h2)
    exact h.backed x (by rw [hp]; simp)
  unfold read
  cases hc : m.pages.checkAccess address len .read with
  | mk r pages =>
    rw [hc] at hok
    dsimp only at hok
    subst hok
    exact h.placed.read_spec h.readable hback

/-- A read succeeds exactly when every page permits it. -/
theorem Inv.read_isOk (h : Inv env m) (address len : ℕ) :
    (∃ v, (m.read env address len).1 = .ok v) ↔ m.Granted .read address len := by
  refine ⟨fun ⟨v, hv⟩ => ?_, fun hg => ⟨_, h.read_eq hg⟩⟩
  rw [← h.checkAccess_iff]
  unfold read at hv
  cases hc : m.pages.checkAccess address len .read with
  | mk r pages =>
    rw [hc] at hv
    cases r with
    | ok u => rfl
    | error e => cases hv

/-- A read returns the content at each address. -/
theorem Inv.read_byte (h : Inv env m) {address len : ℕ} {v : List UInt8}
    (hv : (m.read env address len).1 = .ok v) :
    v.length = len ∧ ∀ i, i < len → m.backend.byte (address + i) = v[i]? := by
  have hg := (h.read_isOk address len).mp ⟨v, hv⟩
  rw [h.read_eq hg] at hv
  obtain rfl := Outcome.ok.inj hv
  refine ⟨by simp, fun i hi => ?_⟩
  obtain ⟨p, hp, -⟩ := PageTable.grants_iff.mp (hg (address + i) (by omega) (by omega))
  obtain ⟨q, hq⟩ := Option.isSome_iff_exists.mp (h.backed (address + i) (by rw [hp]; simp))
  rw [List.getElem?_map, List.getElem?_range hi, Option.map_some, ArenaSet.byte, hq]
  rfl

/-! ### Writing -/

/-- In a run of safe calls a write succeeds exactly when every page permits it, and else is an error
that changes nothing. -/
theorem SealInv.write_cases {S : Set ℕ} (hi : SealInv env (m, S)) (h : Inv env m) (address : ℕ)
    (bytes : List UInt8) :
    (m.Granted .write address bytes.length ∧ (m.write env address bytes).1 = .ok () ∧
      Wrote env m address bytes (m.write env address bytes).2) ∨
    (¬ m.Granted .write address bytes.length ∧ (∃ e, (m.write env address bytes).1 = .error e) ∧
      Same m (m.write env address bytes).2) := by
  rcases h.change_write address bytes with ⟨e, he, hs, hn⟩ | ⟨-, hg, x, h1, h2, hx⟩ | ⟨hok, hw⟩
  · refine .inr ⟨fun hg => hn ?_, ⟨e, he⟩, hs⟩
    rw [← List.length_eq_zero_iff, ← h.pages.checkAccess_eq_ok, h.checkAccess_iff]
    exact hg
  · exact absurd (hi.writable h (hg x h1 h2)) hx
  · refine .inl ⟨?_, hok, hw⟩
    rw [← h.checkAccess_iff, h.pages.checkAccess_eq_ok, List.length_eq_zero_iff]
    exact hw.granted

/-! ### The values last written -/

/-- The page of `x` is committed. -/
def CommittedAt (m : GuestMemory) (x : ℕ) : Prop :=
  ∃ p, m.pages.table (x / 0x1000) = some (.committed, p)

instance (m : GuestMemory) (x : ℕ) : Decidable (m.CommittedAt x) :=
  decidable_of_iff ((m.pages.table (x / 0x1000)).any (fun v => v.1 == .committed) = true) (by
    rw [Option.any_eq_true]
    constructor
    · rintro ⟨⟨st, p⟩, hp, hst⟩
      obtain rfl : st = .committed := by simpa using hst
      exact ⟨p, hp⟩
    · rintro ⟨p, hp⟩
      exact ⟨_, hp, rfl⟩)

/-- The values last written, after a call: the bytes of a successful write, and else those before,
on pages that are committed. -/
def lastAfter (op : Op) (ok : Bool) (m' : GuestMemory) (last : ℕ → Option UInt8) :
    ℕ → Option UInt8 := fun x =>
  if m'.CommittedAt x then
    match op with
    | .write address bytes =>
      if ok = true ∧ address ≤ x ∧ x < address + bytes.length then
        some (bytes.getD (x - address) 0)
      else last x
    | _ => last x
  else none

/-- A memory with its sealed addresses and the values last written. -/
structure Traced where
  /-- The memory. -/
  mem : GuestMemory
  /-- The sealed addresses. -/
  sealed : Set ℕ
  /-- The values last written. -/
  last : ℕ → Option UInt8

/-- A call with its effect on the history. -/
def StoreStep (env : HostEnv) (s : Traced) (op : Op) (s' : Traced) : Prop :=
  SealStep env (s.mem, s.sealed) op (s'.mem, s'.sealed) ∧
    s'.last = lastAfter op (isOk (op.run env s.mem).1) s'.mem s.last

/-- The memory and the history after a call. -/
def Traced.after (env : HostEnv) (s : Traced) (op : Op) : Traced where
  mem := (op.run env s.mem).2
  sealed := sealAfter env s.mem op (op.run env s.mem).2 s.sealed
  last := lastAfter op (isOk (op.run env s.mem).1) (op.run env s.mem).2 s.last

/-- The memories reachable by safe calls, with their history. -/
def StoreReach (env : HostEnv) (s : Traced) : Prop :=
  GuardedReach (fun s => (∃ host, s.mem = new host) ∧ s.sealed = ∅ ∧ s.last = fun _ => none)
    (fun s => FrameSafe env (s.mem, s.sealed)) (StoreStep env) s

theorem StoreReach.call {s : Traced} (h : StoreReach env s) (op : Op)
    (hg : FrameSafe env (s.mem, s.sealed) op) (hc : (op.run env s.mem).1 ≠ .crash) :
    StoreReach env (s.after env op) :=
  .step h hg ⟨⟨⟨hc, rfl⟩, rfl⟩, rfl⟩

/-- What was last written is there, and its page is committed. -/
def LastInv (s : Traced) : Prop :=
  ∀ x v, s.last x = some v → s.mem.backend.byte x = some v ∧ s.mem.CommittedAt x

theorem lastAfter_eq_some {op : Op} {ok : Bool} {last : ℕ → Option UInt8} {x : ℕ} {v : UInt8}
    (h : lastAfter op ok m' last x = some v) :
    m'.CommittedAt x ∧
      ((∃ address bytes, op = .write address bytes ∧ ok = true ∧ address ≤ x ∧
        x < address + bytes.length ∧ v = bytes.getD (x - address) 0) ∨
      (last x = some v ∧ ∀ address bytes, op = .write address bytes → ok = true →
        ¬ (address ≤ x ∧ x < address + bytes.length))) := by
  unfold lastAfter at h
  split at h
  · rename_i hc
    refine ⟨hc, ?_⟩
    cases op with
    | write address bytes =>
      dsimp only at h
      split at h
      · rename_i hin
        cases h
        exact .inl ⟨address, bytes, rfl, hin.1, hin.2.1, hin.2.2, rfl⟩
      · rename_i hin
        refine .inr ⟨h, fun a b hop hok hx => hin ?_⟩
        cases hop
        exact ⟨hok, hx⟩
    | _ => exact .inr ⟨h, fun a b hop => by cases hop⟩
  · cases h

theorem LastInv.step {s s' : Traced} {op : Op} (hl : LastInv s) (h : Inv env s.mem)
    (hs : StoreStep env s op s') : LastInv s' := by
  intro x v hv
  rw [hs.2] at hv
  have hc := hs.1.1.change h
  obtain ⟨⟨p, hp⟩, hcase⟩ := lastAfter_eq_some hv
  refine ⟨?_, p, hp⟩
  rcases hcase with ⟨address, bytes, rfl, hok, h1, h2, rfl⟩ | ⟨hlast, hno⟩
  · rw [hok] at hc
    cases hc with
    | same hq _ => exact (hq rfl).elim
    | wrote hw => rw [hw.backend.byte, if_pos ⟨h1, h2⟩]
  · obtain ⟨hbyte, q, hq⟩ := hl x v hlast
    cases hc.byteChange h (x := x) (by rw [hq]; simp) with
    | kept hk => rw [hk, hbyte]
    | written hop hok h1 h2 _ => exact absurd ⟨h1, h2⟩ (hno _ _ hop hok)
    | zeroed ht _ =>
      rw [ht] at hp
      cases hp
    | freed ht =>
      rw [ht] at hp
      cases hp

theorem StoreReach.invs {s : Traced} (h : StoreReach env s) :
    Inv env s.mem ∧ SealInv env (s.mem, s.sealed) ∧ LastInv s := by
  refine GuardedReach.invariant
    (I := fun s => Inv env s.mem ∧ SealInv env (s.mem, s.sealed) ∧ LastInv s) ?_ ?_ h
  · rintro ⟨m, S, last⟩ ⟨⟨host, rfl⟩, rfl, rfl⟩
    exact ⟨inv_new host, sealInv_new host, nofun⟩
  · rintro ⟨m, S, last⟩ op ⟨m', S', last'⟩ ⟨hinv, hi, hl⟩ hsafe hs
    refine ⟨(hs.1.1.change hinv).inv hinv, ?_, hl.step hinv hs⟩
    have hS : S' = sealAfter env m op m' S := hs.1.2
    subst hS
    exact hi.step hinv hsafe hs.1.1

/-- **Guest memory is a flat byte store guarded by page permissions**, in every run of safe calls.
A write succeeds exactly when it is empty or every page it touches is committed and permits it; then
it changes exactly the bytes it names, and every read that follows sees the new content. A write
that does not succeed is an error and changes no byte. A read succeeds exactly when every page it
touches is committed and permits it, and returns at each address the value last written there. -/
theorem flat_byte_store {s : Traced} (h : StoreReach env s) :
    (∀ address bytes, (s.mem.write env address bytes).1 = .ok () ↔
      bytes = [] ∨ (address + bytes.length < 2 ^ 64 ∧
        s.mem.Granted .write address bytes.length)) ∧
    (∀ address bytes, (s.mem.write env address bytes).1 = .ok () →
      (∀ x, (s.mem.write env address bytes).2.backend.byte x =
        if address ≤ x ∧ x < address + bytes.length then some (bytes.getD (x - address) 0)
        else s.mem.backend.byte x) ∧
      ∀ a len, s.mem.Granted .read a len →
        ((s.mem.write env address bytes).2.read env a len).1 = .ok ((List.range len).map fun i =>
          if address ≤ a + i ∧ a + i < address + bytes.length then bytes.getD (a + i - address) 0
          else (s.mem.backend.byte (a + i)).getD 0)) ∧
    (∀ address bytes, (s.mem.write env address bytes).1 ≠ .ok () →
      (∃ e, (s.mem.write env address bytes).1 = .error e) ∧
      ∀ x, (s.mem.write env address bytes).2.backend.byte x = s.mem.backend.byte x) ∧
    (∀ address len, (∃ v, (s.mem.read env address len).1 = .ok v) ↔
      s.mem.Granted .read address len) ∧
    ∀ address len v, (s.mem.read env address len).1 = .ok v → v.length = len ∧
      ∀ i, i < len → s.mem.backend.byte (address + i) = v[i]? ∧
        ∀ b, s.last (address + i) = some b → v[i]? = some b := by
  obtain ⟨hinv, hi, hl⟩ := h.invs
  refine ⟨fun address bytes => ?_, fun address bytes hok => ?_, fun address bytes hne => ?_,
    hinv.read_isOk, fun address len v hv => ?_⟩
  · have hiff : s.mem.Granted .write address bytes.length ↔ bytes = [] ∨
        (address + bytes.length < 2 ^ 64 ∧ s.mem.Granted .write address bytes.length) := by
      conv_lhs => rw [← hinv.checkAccess_iff, hinv.pages.checkAccess_eq_ok,
        List.length_eq_zero_iff]
      rfl
    rw [← hiff]
    rcases hi.write_cases hinv address bytes with ⟨hg, hok, -⟩ | ⟨hg, ⟨e, he⟩, -⟩
    · exact ⟨fun _ => hg, fun _ => hok⟩
    · refine ⟨fun hok => ?_, fun hg' => absurd hg' hg⟩
      rw [he] at hok
      cases hok
  · rcases hi.write_cases hinv address bytes with ⟨-, -, hw⟩ | ⟨-, ⟨e, he⟩, -⟩
    · refine ⟨hw.backend.byte, fun a len hg => ?_⟩
      have hg' : (s.mem.write env address bytes).2.Granted .read a len := by
        unfold Granted
        rw [hw.table]
        exact hg
      rw [(hw.inv hinv).read_eq hg']
      congr 1
      refine List.map_congr_left fun i _ => ?_
      rw [hw.backend.byte]
      split <;> rfl
    · rw [he] at hok
      cases hok
  · rcases hi.write_cases hinv address bytes with ⟨-, hok, -⟩ | ⟨-, he, hs⟩
    · exact absurd hok hne
    · exact ⟨he, fun x => by rw [hs.backend]⟩
  · obtain ⟨hlen, hget⟩ := hinv.read_byte hv
    refine ⟨hlen, fun i hilt => ⟨hget i hilt, fun b hb => ?_⟩⟩
    rw [← hget i hilt]
    exact (hl _ _ hb).1

/-- A write across two pages. -/
theorem flat_byte_store_crossing : ∃ s, StoreReach .fourK s ∧
    (s.mem.write .fourK 0x20ffe [1, 2, 3]).1 = .ok () ∧
    (s.mem.write .fourK 0x20ffe [1, 2, 3]).2.backend.byte 0x21000 = some 3 := by
  have h : StoreReach .fourK (Traced.after .fourK ⟨new .roomy, ∅, fun _ => none⟩
      (.virtualAlloc 0x20000 0x2000 (memReserve + memCommit) Protect.pageReadwrite)) :=
    StoreReach.call (.init ⟨⟨_, rfl⟩, rfl, rfl⟩) _ (frameSafe_empty _) (by decide +kernel)
  have hok : ((Traced.after .fourK ⟨new .roomy, ∅, fun _ => none⟩
      (.virtualAlloc 0x20000 0x2000 (memReserve + memCommit) Protect.pageReadwrite)).mem.write
        .fourK 0x20ffe [1, 2, 3]).1 = .ok () := by decide +kernel
  exact ⟨_, h, hok, ((flat_byte_store h).2.1 _ _ hok).1 0x21000⟩

/-- A page made read-only and committed again for writing: the write is permitted and ends the
process. -/
theorem recommit_write_crashes : ∃ m, Reachable .fourK AnyCall m ∧
    m.Granted .write 0x20000 1 ∧ (m.write .fourK 0x20000 [1]).1 = .crash := by
  refine ⟨runAll .fourK (new .roomy)
    [.virtualAlloc 0x20000 0x2000 (memReserve + memCommit) Protect.pageReadwrite,
      .virtualProtect 0x20000 0x1000 Protect.pageReadonly,
      .virtualAlloc 0x20000 0x1000 memCommit Protect.pageReadwrite],
    (reachable_new _).runAll _ (allMeet_anyCall _ _) (by decide +kernel), fun x h1 h2 => ?_,
    by decide +kernel⟩
  obtain rfl : x = 0x20000 := by omega
  decide +kernel

end GuestMemory

end Wie
