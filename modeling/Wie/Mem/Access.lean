import Wie.Mem.Guest
import Wie.Mem.Translate

/-!
# The access loops

Reads, writes and the zeroing of a decommit all go page by page, translating each page on its own.
This file says what they do to the bytes of guest memory: a write changes exactly the bytes it
names, a decommit zeroes exactly its range, a read returns what is there. A store can end the
process, and then some byte of the range was under a host page that is not mapped for writing.

## Main definitions

* `ArenaSet.Writable` — the host page under a guest address is mapped for writing
* `ArenaSet.Written` — the effect of a write

## Main results

* `ArenaSet.Placed.writeChunks_spec` — the write of guest memory
* `ArenaSet.Placed.discardRange_spec` — the zeroing of a decommit
* `ArenaSet.Placed.read_spec` — the read
-/

namespace Wie

namespace ArenaSet

variable {env : HostEnv} {s s' : ArenaSet} {va x p : ℕ}

theorem spans_congr (h : s'.arenas = s.arenas) : s'.spans = s.spans := by
  rw [spans, h, spans]

theorem spanAt_congr (h : s'.arenas = s.arenas) (va : ℕ) : s'.spanAt va = s.spanAt va := by
  unfold spanAt findVa candidateIndex
  rw [h]

theorem hostAddr_congr (h : s'.arenas = s.arenas) (va : ℕ) : s'.hostAddr va = s.hostAddr va := by
  rw [hostAddr, spanAt_congr h, hostAddr]

/-- The host page under a guest address permits what `ok` asks for. -/
def HostPermits (env : HostEnv) (s : ArenaSet) (ok : HostProt → Bool) (x : ℕ) : Prop :=
  ∃ p q, s.hostAddr x = some p ∧ s.host.prot (p / env.pageSize) = some q ∧ ok q = true

instance (ok : HostProt → Bool) (x : ℕ) : Decidable (HostPermits env s ok x) :=
  decidable_of_iff (((s.hostAddr x).bind fun p => s.host.prot (p / env.pageSize)).any ok = true)
    (by
      simp only [HostPermits, Option.any_eq_true, Option.bind_eq_some_iff]
      exact ⟨fun ⟨q, ⟨p, hp, hq⟩, hok⟩ => ⟨p, q, hp, hq, hok⟩,
        fun ⟨p, q, hp, hq, hok⟩ => ⟨q, ⟨p, hp, hq⟩, hok⟩⟩)

/-- The host page under a guest address is mapped for writing. -/
abbrev Writable (env : HostEnv) (s : ArenaSet) (x : ℕ) : Prop := HostPermits env s HostProt.w x

/-- The host pages under arenas are mapped for reading. -/
theorem Readable.hostPermits (h : Readable env s) (hP : Placed env s.spans) {x : ℕ}
    (hx : (s.hostAddr x).isSome = true) : HostPermits env s HostProt.r x := by
  obtain ⟨a, ha, hax⟩ := hP.hostAddr_isSome.mp hx
  obtain ⟨q, hq, hr⟩ := h a ha _ (hax.owns env)
  exact ⟨_, q, hP.hostAddr_of_holds ha hax, hq, hr⟩

theorem writable_congr (h : s'.arenas = s.arenas) (hp : s'.host.prot = s.host.prot) :
    s'.Writable env x ↔ s.Writable env x := by
  unfold Writable HostPermits
  rw [hostAddr_congr h, hp]

/-- `s'` is `s` with `bytes` written at `va`. -/
structure Written (s s' : ArenaSet) (va : ℕ) (bytes : List UInt8) : Prop where
  /-- The arenas stay. -/
  arenas : s'.arenas = s.arenas
  /-- Host protection stays. -/
  prot : s'.host.prot = s.host.prot
  /-- The bytes named are the bytes written; all others stay. -/
  byte : ∀ x, s'.byte x =
    if va ≤ x ∧ x < va + bytes.length then some (bytes.getD (x - va) 0) else s.byte x

theorem Written.refl (s : ArenaSet) (va : ℕ) : Written s s va [] where
  arenas := rfl
  prot := rfl
  byte x := by rw [if_neg (by simp)]

/-- A write is its first chunk and then the rest. -/
theorem Written.append {s₁ s₂ : ArenaSet} {bytes : List UInt8} {n : ℕ} (hn : n ≤ bytes.length)
    (h₁ : Written s s₁ va (bytes.take n)) (h₂ : Written s₁ s₂ (va + n) (bytes.drop n)) :
    Written s s₂ va bytes where
  arenas := h₂.arenas.trans h₁.arenas
  prot := h₂.prot.trans h₁.prot
  byte x := by
    rw [h₂.byte, h₁.byte]
    simp only [List.length_take, List.length_drop, Nat.min_eq_left hn]
    by_cases hlo : va ≤ x ∧ x < va + n
    · rw [if_neg (by omega), if_pos hlo, if_pos (by omega)]
      simp only [List.getD_eq_getElem?_getD]
      rw [List.getElem?_take_of_lt (by omega)]
    · by_cases hhi : va + n ≤ x ∧ x < va + n + (bytes.length - n)
      · rw [if_pos hhi, if_pos (by omega)]
        simp only [List.getD_eq_getElem?_getD]
        rw [List.getElem?_drop, show n + (x - (va + n)) = x - va by omega]
      · rw [if_neg hhi, if_neg hlo, if_neg (by omega)]

namespace Placed

/-- A store inside one page writes the guest bytes it names. -/
theorem written_store (h : Placed env s.spans) (hp : s.hostAddr va = some p) (bytes : List UInt8)
    (hlen : va % 0x1000 + bytes.length ≤ 0x1000) :
    Written s { s with host := s.host.overwrite p bytes } va bytes where
  arenas := rfl
  prot := rfl
  byte x := by
    change (s.hostAddr x).map (s.host.overwrite p bytes).mem = _
    unfold Host.overwrite
    by_cases hx : va ≤ x ∧ x < va + bytes.length
    · have haddr := h.hostAddr_add hp (i := x - va) (by omega)
      rw [show va + (x - va) = x by omega] at haddr
      rw [haddr, if_pos hx]
      simp only [Option.map_some]
      rw [if_pos (by omega), show p + (x - va) - p = x - va by omega]
    · rw [if_neg hx, byte]
      cases hq : s.hostAddr x with
      | none => rfl
      | some q =>
        simp only [Option.map_some]
        -- another guest address cannot translate into the bytes stored
        rw [if_neg]
        intro hr
        have haddr := h.hostAddr_add hp (i := q - p) (by omega)
        rw [show p + (q - p) = q by omega] at haddr
        have := h.hostAddr_inj hq haddr
        omega

/-- **The write of guest memory, on a range that is backed.** Either the process ends, and some
byte of the range is not writable; or all are, and the write happens. -/
theorem writeChunks_spec : ∀ (fuel va : ℕ) (bytes : List UInt8) (s : ArenaSet),
    Placed env s.spans → bytes.length ≤ fuel →
    (∀ x, va ≤ x → x < va + bytes.length → (s.hostAddr x).isSome = true) →
    ((GuestMemory.writeChunks env fuel va bytes s).1 = .crash ∧
        ∃ x, va ≤ x ∧ x < va + bytes.length ∧ ¬ s.Writable env x) ∨
      ((GuestMemory.writeChunks env fuel va bytes s).1 = .ok () ∧
        Written s (GuestMemory.writeChunks env fuel va bytes s).2 va bytes ∧
        ∀ x, va ≤ x → x < va + bytes.length → s.Writable env x) := by
  intro fuel
  induction fuel with
  | zero =>
    intro va bytes s h hf hb
    obtain rfl : bytes = [] := List.eq_nil_of_length_eq_zero (by omega)
    exact .inr ⟨rfl, .refl s va, fun x h1 h2 => by simp at h2; omega⟩
  | succ fuel ih =>
    intro va bytes s h hf hb
    unfold GuestMemory.writeChunks
    cases hbytes : bytes with
    | nil => exact .inr ⟨rfl, .refl s va, fun x h1 h2 => by simp at h2; omega⟩
    | cons c cs =>
      rw [← hbytes]
      have hpos : 0 < bytes.length := by simp [hbytes]
      have hne : bytes.isEmpty = false := by simp [hbytes]
      simp only [hne, Bool.false_eq_true, if_false]
      obtain ⟨p, hp⟩ := Option.isSome_iff_exists.mp (hb va le_rfl (by omega))
      rw [h.writePtr_eq, hp]
      set n := min (0x1000 - va % 0x1000) bytes.length with hn
      have hnpos : 0 < n := by omega
      have htake : (bytes.take n).length = n := by simp [List.length_take]; omega
      have haddr (x : ℕ) (h1 : p ≤ x) (h2 : x < p + n) : s.hostAddr (va + (x - p)) = some x := by
        rw [h.hostAddr_add hp (by omega), show p + (x - p) = x by omega]
      dsimp only
      cases hst : s.host.store env p (bytes.take n) with
      | none =>
        refine .inl ⟨rfl, ?_⟩
        -- the store was denied somewhere, and that place is a guest byte of the range
        by_contra hall
        push Not at hall
        have hok : s.host.store env p (bytes.take n) = some _ :=
          (Host.store_eq_some (by omega)).mpr ⟨fun x h1 h2 => by
            obtain ⟨p', q, hp', hq, hw⟩ := hall (va + (x - p)) (by omega) (by omega)
            rw [haddr x h1 (by omega)] at hp'
            cases hp'
            exact ⟨q, hq, hw⟩, rfl⟩
        rw [hst] at hok
        cases hok
      | some host =>
        obtain ⟨hw, rfl⟩ := (Host.store_eq_some (by omega)).mp hst
        have hwr := h.written_store hp (bytes.take n) (by omega)
        set s₁ : ArenaSet := { s with host := s.host.overwrite p (bytes.take n) } with hs₁
        have hW (x : ℕ) : s₁.Writable env x ↔ s.Writable env x :=
          writable_congr hwr.arenas hwr.prot
        have hfirst (x : ℕ) (h1 : va ≤ x) (h2 : x < va + n) : s.Writable env x := by
          obtain ⟨q, hq, hqw⟩ := hw (p + (x - va)) (by omega) (by omega)
          refine ⟨p + (x - va), q, ?_, hq, hqw⟩
          rw [← h.hostAddr_add hp (by omega), show va + (x - va) = x by omega]
        have hlen : (bytes.drop n).length = bytes.length - n := List.length_drop
        dsimp only
        rcases ih (va + n) (bytes.drop n) s₁ (by rw [spans_congr hwr.arenas]; exact h)
            (by omega) (fun x h1 h2 => by
              rw [hostAddr_congr hwr.arenas]
              exact hb x (by omega) (by omega)) with ⟨hc, x, h1, h2, hx⟩ | ⟨hok, hrest, hall⟩
        · exact .inl ⟨hc, x, by omega, by omega, mt (hW x).mpr hx⟩
        · refine .inr ⟨hok, hwr.append (by omega) hrest, fun x h1 h2 => ?_⟩
          by_cases hx : x < va + n
          · exact hfirst x h1 hx
          · exact (hW x).mp (hall x (by omega) (by omega))

/-- Under the invariant the two write loops are one: an arena never ends inside a page. -/
theorem writeLoop_eq : ∀ (fuel va : ℕ) (bytes : List UInt8) (s : ArenaSet), Placed env s.spans →
    writeLoop env fuel va bytes s = GuestMemory.writeChunks env fuel va bytes s := by
  intro fuel
  induction fuel with
  | zero => exact fun va bytes s _ => rfl
  | succ fuel ih =>
    intro va bytes s h
    unfold writeLoop GuestMemory.writeChunks
    cases hbytes : bytes.isEmpty with
    | true => rfl
    | false =>
      simp only [Bool.false_eq_true, if_false]
      rw [h.writePtr_eq]
      unfold hostAddr spanAt
      cases hf : s.findVa va with
      | none => rfl
      | some b =>
        obtain ⟨hb, hva⟩ := h.spanAt_eq_some.mp (show s.spanAt va = some b.toHostSpan by
          simp [spanAt, hf])
        obtain ⟨hal, hsz⟩ := h.aligned _ hb
        obtain ⟨h1, h2⟩ := hva
        have hpos : 0 < bytes.length := List.length_pos_iff.mpr (by simpa using hbytes)
        have hroom : min (0x1000 - va % 0x1000) (b.size - (va - b.guestBase)) =
            0x1000 - va % 0x1000 := by omega
        simp only [hroom, Option.map_some]
        rw [if_neg (by omega)]
        cases s.host.store env (b.host + (va - b.guestBase))
            (bytes.take (min (0x1000 - va % 0x1000) bytes.length)) with
        | none => rfl
        | some host => exact ih _ _ _ h

/-- A write that starts in no arena fails and changes nothing. -/
theorem write_of_unbacked (h : Placed env s.spans) (hn : s.hostAddr va = none)
    (bytes : List UInt8) (hb : 0 < bytes.length) :
    ∃ e, s.write env va bytes = (.error e, s) := by
  obtain ⟨fuel, hf⟩ : ∃ fuel, bytes.length = fuel + 1 := ⟨bytes.length - 1, by omega⟩
  have hne : bytes.isEmpty = false := by simpa using List.ne_nil_of_length_pos hb
  unfold write
  rw [h.writeLoop_eq, hf]
  unfold GuestMemory.writeChunks
  rw [h.writePtr_eq, hn]
  simp only [hne, Bool.false_eq_true, if_false]
  exact ⟨_, rfl⟩

/-- The zeroing loop over whole pages. -/
theorem discardLoop_spec (size : ℕ) (hsize : 0x1000 ≤ size) :
    ∀ (fuel va remaining : ℕ) (s : ArenaSet), Placed env s.spans → remaining ≤ fuel →
    va % 0x1000 = 0 → remaining % 0x1000 = 0 →
    ((discardLoop env size fuel va remaining s).1 = .crash ∧
        ∃ x, va ≤ x ∧ x < va + remaining ∧ (s.hostAddr x).isSome = true ∧ ¬ s.Writable env x) ∨
      ((discardLoop env size fuel va remaining s).1 = .ok () ∧
        (discardLoop env size fuel va remaining s).2.arenas = s.arenas ∧
        (discardLoop env size fuel va remaining s).2.host.prot = s.host.prot ∧
        (∀ x, (discardLoop env size fuel va remaining s).2.byte x =
          if va ≤ x ∧ x < va + remaining then (s.byte x).map fun _ => 0 else s.byte x) ∧
        ∀ x, va ≤ x → x < va + remaining → (s.hostAddr x).isSome = true → s.Writable env x) := by
  intro fuel
  induction fuel with
  | zero =>
    intro va remaining s h hf hva hrem
    refine .inr ⟨rfl, rfl, rfl, fun x => ?_, fun x h1 h2 => by omega⟩
    rw [if_neg (by omega)]
    rfl
  | succ fuel ih =>
    intro va remaining s h hf hva hrem
    unfold discardLoop
    by_cases h0 : remaining = 0
    · rw [if_pos h0]
      refine .inr ⟨rfl, rfl, rfl, fun x => ?_, fun x h1 h2 => by omega⟩
      rw [if_neg (by omega)]
    · rw [if_neg h0]
      have hchunk : min (min remaining (0x1000 - va % 0x1000)) (min size 0x1000) = 0x1000 := by
        omega
      simp only [hchunk]
      rw [if_neg (by omega)]
      have hzero (i : ℕ) : (List.replicate 0x1000 (0 : UInt8)).getD i 0 = 0 := by
        rw [List.getD_eq_getElem?_getD, List.getElem?_replicate]
        split <;> rfl
      have hlen : (List.replicate 0x1000 (0 : UInt8)).length = 0x1000 := List.length_replicate
      generalize List.replicate 0x1000 (0 : UInt8) = zeros at hzero hlen
      by_cases hback : (s.hostAddr va).isSome = true
      · -- the whole page is backed: the write zeroes it or ends the process
        obtain ⟨p, hp⟩ := Option.isSome_iff_exists.mp hback
        have hpage (x : ℕ) (h1 : va ≤ x) (h2 : x < va + 0x1000) :
            (s.hostAddr x).isSome = true := by
          have := h.hostAddr_add hp (i := x - va) (by omega)
          rw [show va + (x - va) = x by omega] at this
          simp [this]
        have hspec := writeChunks_spec zeros.length va zeros s h le_rfl
          (fun x h1 h2 => hpage x h1 (by omega))
        rw [← h.writeLoop_eq, ← write] at hspec
        rcases hspec with ⟨hc, x, h1, h2, hx⟩ | ⟨hok, hwr, hall⟩
        · have hpair : s.write env va zeros = (.crash, (s.write env va zeros).2) :=
            Prod.ext hc rfl
          rw [hpair]
          exact .inl ⟨rfl, x, h1, by omega, hpage x h1 (by omega), hx⟩
        · have hpair : s.write env va zeros = (.ok (), (s.write env va zeros).2) :=
            Prod.ext hok rfl
          rw [hpair]
          dsimp only
          set s₁ := (s.write env va zeros).2 with hs₁
          have hW (x : ℕ) : s₁.Writable env x ↔ s.Writable env x :=
            writable_congr hwr.arenas hwr.prot
          rcases ih (va + 0x1000) (remaining - 0x1000) s₁
              (by rw [spans_congr hwr.arenas]; exact h) (by omega) (by omega) (by omega) with
            ⟨hc, x, h1, h2, hb, hx⟩ | ⟨hok', har, hpr, hby, hall'⟩
          · rw [hostAddr_congr hwr.arenas] at hb
            exact .inl ⟨hc, x, by omega, by omega, hb, mt (hW x).mpr hx⟩
          · refine .inr ⟨hok', har.trans hwr.arenas, hpr.trans hwr.prot, fun x => ?_,
              fun x h1 h2 hb => ?_⟩
            · rw [hby, hwr.byte]
              by_cases h1 : va ≤ x ∧ x < va + 0x1000
              · obtain ⟨q, hq⟩ := Option.isSome_iff_exists.mp (hpage x h1.1 h1.2)
                rw [if_neg (by omega), if_pos (by omega), if_pos (by omega), byte, hq, hzero]
                rfl
              · by_cases h2 : va + 0x1000 ≤ x ∧ x < va + remaining
                · rw [if_pos (by omega), if_neg (by omega), if_pos (by omega)]
                · rw [if_neg (by omega), if_neg (by omega), if_neg (by omega)]
            · by_cases hx : x < va + 0x1000
              · exact hall x h1 (by omega)
              · refine (hW x).mp (hall' x (by omega) (by omega) ?_)
                rwa [hostAddr_congr hwr.arenas]
      · -- the page is in no arena: the write fails and is ignored
        have hnone : s.hostAddr va = none := by simpa using hback
        have hpage (x : ℕ) (h1 : va ≤ x) (h2 : x < va + 0x1000) : s.hostAddr x = none := by
          rw [h.hostAddr_eq_none] at hnone ⊢
          exact fun a ha hh => hnone a ha (h.holds_of_page_eq ha hh (by omega))
        obtain ⟨e, he⟩ := h.write_of_unbacked hnone zeros (by omega)
        rw [he]
        dsimp only
        rcases ih (va + 0x1000) (remaining - 0x1000) s h (by omega) (by omega) (by omega) with
          ⟨hc, x, h1, h2, hb, hx⟩ | ⟨hok', har, hpr, hby, hall'⟩
        · exact .inl ⟨hc, x, by omega, by omega, hb, hx⟩
        · refine .inr ⟨hok', har, hpr, fun x => ?_, fun x h1 h2 hb => ?_⟩
          · rw [hby]
            by_cases h1 : va ≤ x ∧ x < va + 0x1000
            · rw [if_neg (by omega), if_pos (by omega), byte, hpage x h1.1 h1.2]
              rfl
            · by_cases h2 : va + 0x1000 ≤ x ∧ x < va + remaining
              · rw [if_pos (by omega), if_pos (by omega)]
              · rw [if_neg (by omega), if_neg (by omega)]
          · by_cases hx : x < va + 0x1000
            · rw [hpage x h1 hx] at hb
              cases hb
            · exact hall' x (by omega) (by omega) hb

/-- **The zeroing of a decommit.** Either the process ends, and some backed byte of the range is
not writable; or all are, and exactly the range is zeroed. -/
theorem discardRange_spec (h : Placed env s.spans) {size : ℕ} (hva : va % 0x1000 = 0)
    (hsize : size % 0x1000 = 0) :
    ((s.discardRange env va size).1 = .crash ∧
        ∃ x, va ≤ x ∧ x < va + size ∧ (s.hostAddr x).isSome = true ∧ ¬ s.Writable env x) ∨
      ((s.discardRange env va size).1 = .ok () ∧
        (s.discardRange env va size).2.arenas = s.arenas ∧
        (s.discardRange env va size).2.host.prot = s.host.prot ∧
        (∀ x, (s.discardRange env va size).2.byte x =
          if va ≤ x ∧ x < va + size then (s.byte x).map fun _ => 0 else s.byte x) ∧
        ∀ x, va ≤ x → x < va + size → (s.hostAddr x).isSome = true → s.Writable env x) := by
  unfold discardRange
  rcases Nat.eq_zero_or_pos size with rfl | hpos
  · refine .inr ⟨rfl, rfl, rfl, fun x => ?_, fun x h1 h2 => by omega⟩
    rw [if_neg (by omega)]
    rfl
  · exact discardLoop_spec size (by omega) size va size s h le_rfl hva hsize

/-- **A read of a backed range returns its bytes.** -/
theorem readLoop_spec (h : Placed env s.spans) (hr : Readable env s) :
    ∀ (fuel va len : ℕ) (acc : List UInt8), len ≤ fuel →
    (∀ x, va ≤ x → x < va + len → (s.hostAddr x).isSome = true) →
    s.readLoop env fuel va len acc =
      .ok (acc ++ (List.range len).map fun i => (s.byte (va + i)).getD 0) := by
  intro fuel
  induction fuel with
  | zero =>
    intro va len acc hf hb
    obtain rfl : len = 0 := by omega
    simp [readLoop]
  | succ fuel ih =>
    intro va len acc hf hb
    unfold readLoop
    by_cases h0 : len = 0
    · simp [h0]
    · rw [if_neg h0]
      obtain ⟨p, hp⟩ := Option.isSome_iff_exists.mp (hb va le_rfl (by omega))
      obtain ⟨a, ha, hva, rfl⟩ := h.hostAddr_eq_some.mp hp
      have hsp := h.spanAt_eq_some.mpr ⟨ha, hva⟩
      obtain ⟨b, hf', rfl⟩ := Option.map_eq_some_iff.mp hsp
      obtain ⟨hal, hsz⟩ := h.aligned _ ha
      obtain ⟨h1, h2⟩ := hva
      have hroom : min (0x1000 - va % 0x1000) (b.size - (va - b.guestBase)) =
          0x1000 - va % 0x1000 := by omega
      simp only [hf', hroom]
      set n := min (0x1000 - va % 0x1000) len with hn
      rw [if_neg (by omega)]
      have haddr (i : ℕ) (hi : i < n) :
          s.hostAddr (va + i) = some (b.host + (va - b.guestBase) + i) :=
        h.hostAddr_add hp (by omega)
      have hload : s.host.load env (b.host + (va - b.guestBase)) n =
          some ((List.range n).map fun i => (s.byte (va + i)).getD 0) := by
        refine (Host.load_eq_some (by omega)).mpr ⟨fun x hx1 hx2 => ?_, ?_⟩
        · have hown : b.Owns env x := by
            have hx : b.Holds (va + (x - (b.host + (va - b.guestBase)))) :=
              ⟨by omega, by omega⟩
            have := hx.owns env
            rwa [show b.host + (va + (x - (b.host + (va - b.guestBase))) - b.guestBase) = x by
              omega] at this
          exact hr _ ha x hown
        · refine List.map_congr_left fun i hi => ?_
          rw [byte, haddr i (List.mem_range.mp hi)]
          rfl
      rw [hload]
      dsimp only
      rw [ih (va + n) (len - n) _ (by omega) fun x h1 h2 => hb x (by omega) (by omega)]
      congr 1
      rw [List.append_assoc]
      congr 1
      conv_rhs => rw [show len = n + (len - n) by omega, List.range_add, List.map_append]
      simp [Function.comp_def, Nat.add_assoc]

theorem read_spec (h : Placed env s.spans) (hr : Readable env s) {len : ℕ}
    (hb : ∀ x, va ≤ x → x < va + len → (s.hostAddr x).isSome = true) :
    s.read env va len = .ok ((List.range len).map fun i => (s.byte (va + i)).getD 0) := by
  rw [read, h.readLoop_spec hr len va len [] le_rfl hb, List.nil_append]

end Placed

end ArenaSet

end Wie
