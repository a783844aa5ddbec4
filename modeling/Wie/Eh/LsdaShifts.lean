import Wie.Eh.Encoded

/-!
# What a search of an LSDA decodes

The values that the searches of an LSDA read on their way, one after the other, and with them the
shift amounts of a whole search. Each of these values is shifted in range but for one kind, so that
a search is in range exactly when it does not come upon a value of that kind.

The table of call sites is as long as it says of itself. Every record takes the cursor forward, or
to the last address, which is not before the end of any table.

## Main definitions

* `LsdaRead`, `LsdaRead.shifts`, `LsdaRead.WideNegative` — a value that is decoded
* `findLandingPadReads`, `findCleanupReads`, `ActionEnv.matchReads` — those of a search

## Main results

* `LsdaRead.shifts_lt_iff` — which values are shifted in range
* `siteLoop_more` — the loop over the table comes to its end by itself
-/

namespace Wie

variable {read : MemRead}

/-! ### One value -/

/-- A value decoded from an LSDA, by where it stands. -/
inductive LsdaRead
  /-- By `read_uleb128`. -/
  | uleb (cursor : ℕ)
  /-- By `read_sleb128`. -/
  | sleb (cursor : ℕ)
  /-- By `read_encoded_value`. -/
  | encoded (cursor encoding : ℕ)

namespace LsdaRead

/-- Its shift amounts. -/
def shifts (read : MemRead) : LsdaRead → List ℕ
  | uleb cursor => ulebShifts read 9 0 cursor
  | sleb cursor => slebShifts read 9 0 cursor
  | encoded cursor encoding => encodedShifts read cursor encoding

/-- Eight bytes with a sign, and the sign is set. -/
def WideNegative (read : MemRead) : LsdaRead → Prop
  | encoded cursor encoding =>
    encoding &&& 0x0f = DwFormat.sdata8.code ∧ ∃ buf, read cursor 8 = some buf ∧
      2 ^ 63 ≤ fromLe buf
  | _ => False

end LsdaRead

/-- A fixed width, and what is known of a format that has it. -/
theorem dwFormatSize_eq_some {format sz : ℕ} (h : dwFormatSize format = some sz) :
    (sz = 2 ∨ sz = 4 ∨ sz = 8) ∧
      (sz = 8 ∧ isSignedFormat format = true ↔ format = DwFormat.sdata8.code) := by
  unfold dwFormatSize at h
  split at h <;> cases h <;> decide

/-- **Which values are shifted in range**, in any memory. -/
theorem LsdaRead.shifts_lt_iff (m : ByteMap) (r : LsdaRead) :
    (∀ s ∈ r.shifts m.read, s < 64) ↔ ¬r.WideNegative m.read := by
  cases r with
  | uleb cursor =>
    refine ⟨fun _ h => h, fun _ s hs => ?_⟩
    have := lt_of_mem_ulebShifts hs
    omega
  | sleb cursor =>
    refine ⟨fun _ h => h, fun _ s hs => ?_⟩
    have := le_of_mem_slebShifts hs
    omega
  | encoded cursor encoding =>
    -- off the one format there is nothing to show on the right
    have hother : encoding &&& 0x0f ≠ DwFormat.sdata8.code →
        ¬(encoded cursor encoding).WideNegative m.read := fun hne h => hne h.1
    rw [shifts, encodedShifts]
    by_cases ho : encoding = dw_eh_pe.OMIT
    · rw [if_pos ho]
      exact ⟨fun _ => hother (by rw [ho]; decide), fun _ s hs => absurd hs List.not_mem_nil⟩
    rw [if_neg ho]
    by_cases hu : encoding &&& 0x0f = dw_eh_pe.ULEB128
    · simp only [if_pos hu]
      refine ⟨fun _ => hother (by rw [hu]; decide), fun _ s hs => ?_⟩
      have := lt_of_mem_ulebShifts hs
      omega
    by_cases hs : encoding &&& 0x0f = dw_eh_pe.SLEB128
    · simp only [if_neg hu, if_pos hs]
      refine ⟨fun _ => hother (by rw [hs]; decide), fun _ s hs => ?_⟩
      have := le_of_mem_slebShifts hs
      omega
    simp only [if_neg hu, if_neg hs]
    cases hsz : dwFormatSize (encoding &&& 0x0f) with
    | none =>
      refine ⟨fun _ => hother fun h => ?_, fun _ s hs => absurd hs List.not_mem_nil⟩
      rw [h] at hsz
      cases hsz
    | some sz =>
      obtain ⟨hsizes, h8⟩ := dwFormatSize_eq_some hsz
      dsimp only
      cases hread : m.read cursor sz with
      | none =>
        refine ⟨fun _ h => ?_, fun _ s hs => absurd hs List.not_mem_nil⟩
        obtain ⟨hf, buf, hbuf, -⟩ := h
        rw [(h8.mpr hf).1, hbuf] at hread
        cases hread
      | some buf =>
        have hv : fromLe buf < 2 ^ (8 * sz) := by
          have hlt := fromLe_lt buf
          rw [(ByteMap.read_eq_some.mp hread).1] at hlt
          rwa [pow_mul]
        refine (fixedShifts_lt_iff hsizes hv).trans (not_congr ?_)
        constructor
        · rintro ⟨rfl, hsig, hle⟩
          exact ⟨h8.mp ⟨rfl, hsig⟩, buf, hread, hle⟩
        · rintro ⟨hf, buf', hbuf, hle⟩
          obtain ⟨rfl, hsig⟩ := h8.mpr hf
          rw [hread] at hbuf
          cases hbuf
          exact ⟨rfl, hsig, hle⟩

/-! ### A whole search -/

/-- The values behind a value that was read, if it was. -/
def thenReads {α : Type} (o : Option α) (k : α → List LsdaRead) : List LsdaRead := o.elim [] k

/-- The values of `readLpStart`. -/
def lpStartReads (read : MemRead) (cursor : ℕ) : List LsdaRead :=
  thenReads (readByte read cursor) fun r =>
    if r.1 ≠ dw_eh_pe.OMIT then [.encoded r.2 r.1] else []

/-- The values of `readTtype`. -/
def ttypeReads (read : MemRead) (cursor : ℕ) : List LsdaRead :=
  thenReads (readByte read cursor) fun r => if r.1 ≠ dw_eh_pe.OMIT then [.uleb r.2] else []

/-- The values of `readHeader`. -/
def headerReads (read : MemRead) (bases : LsdaBases) (lsdaVa : ℕ) : List LsdaRead :=
  lpStartReads read lsdaVa ++ thenReads (readLpStart read bases lsdaVa) fun r =>
    ttypeReads read r.2 ++ thenReads (readTtype read r.2) fun r =>
      thenReads (readByte read r.2.2) fun r => [.uleb r.2]

/-- The value of `readField`. -/
def fieldRead (format cursor : ℕ) : LsdaRead :=
  if format = dw_eh_pe.ULEB128 then .uleb cursor else .encoded cursor format

/-- The values of `readSite`. -/
def siteReads (read : MemRead) (format cursor : ℕ) : List LsdaRead :=
  if format ≠ dw_eh_pe.ULEB128 ∧ dwFormatSize format = none then []
  else
    fieldRead format cursor :: thenReads (readField read format cursor) fun r =>
      fieldRead format r.2 :: thenReads (readField read format r.2) fun r =>
        fieldRead format r.2 :: thenReads (readField read format r.2) fun r => [.uleb r.2]

/-- The value of `resolveTtype`. -/
def resolveReads (ttypeBase ttypeEnc index : ℕ) : List LsdaRead :=
  if index = 0 ∨ ttypeEnc = dw_eh_pe.OMIT then []
  else
    let format := ttypeEnc &&& 0x0f
    if format = dw_eh_pe.ULEB128 ∨ format = dw_eh_pe.SLEB128 then []
    else
      let entrySize := (dwFormatSize format).getD 0
      if entrySize = 0 then [] else [.encoded (ttypeBase - satMul index entrySize) format]

namespace ActionEnv

/-- The values of `matchLoop`; the filter is read again when the chain goes on. -/
def loopReads (e : ActionEnv) : (rounds : ℕ) → (idx : ℕ) → List LsdaRead
  | 0, _ => []
  | rounds + 1, idx =>
    let rec_ := satAdd e.actionTable (idx - 1)
    .sleb rec_ :: thenReads (readSleb128 e.read rec_) fun first =>
      .sleb first.2 :: thenReads (readSleb128 e.read first.2) fun second =>
        let filter := first.1
        let slotTi := if filter > 0 then
          resolveTtype e.read e.bases e.ttypeBase e.ttypeEnc filter.toNat else none
        (if filter > 0 then resolveReads e.ttypeBase e.ttypeEnc filter.toNat else []) ++
          if filter > 0 ∧ ∃ entry ∈ slotTi, entry ≠ 0 ∧ ∀ ti ∈ e.thrownTypeinfo, entry = ti then []
          else if second.1 = 0 then []
          else
            let nextI := min (asI64 first.2 + second.1) (2 ^ 63 - 1)
            .sleb rec_ :: if nextI ≤ 0 then []
              else if nextI.toNat < e.actionTable then []
              else loopReads e rounds (satAdd (nextI.toNat - e.actionTable) 1)

/-- The values of `matchAction`. -/
def matchReads (e : ActionEnv) (actionIndex : ℕ) : List LsdaRead :=
  if actionIndex = 0 then [] else e.loopReads 32 actionIndex

end ActionEnv

/-- The values of `catchSite`. -/
def catchReads (e : ActionEnv) (h : LsdaHeader) (controlPc : ℕ) (s : RawSite) : List LsdaRead :=
  if s.pad = 0 then []
  else if ¬ (h.covers s (controlPc - 1) ∨ h.covers s controlPc) then []
  else if h.landingVa s = 0 then []
  else if s.action = 0 then []
  else if h.ttypeEnc = dw_eh_pe.OMIT then []
  else e.matchReads s.action

/-- The values of `siteLoop`, given those of `pick`. -/
def siteLoopReads (read : MemRead) (format csEnd : ℕ) (pick : RawSite → Option LandingPadMatch)
    (pickReads : RawSite → List LsdaRead) : (rounds : ℕ) → (cursor : ℕ) → List LsdaRead
  | 0, _ => []
  | rounds + 1, cursor =>
    if cursor < csEnd then
      siteReads read format cursor ++ thenReads (readSite read format cursor) fun r =>
        pickReads r.1 ++
          if (pick r.1).isSome then []
          else siteLoopReads read format csEnd pick pickReads rounds r.2
    else []

/-- The values of `findLandingPadEx`. -/
def findLandingPadReads (read : MemRead) (lsdaVa : ℕ) (bases : LsdaBases) (controlPc : ℕ)
    (thrownTypeinfo : Option ℕ) : List LsdaRead :=
  headerReads read bases lsdaVa ++ thenReads (readHeader read bases lsdaVa) fun h =>
    let csEnd := satAdd h.csStart h.csLen
    let e : ActionEnv := ⟨read, bases, csEnd, h.ttypeBase, h.ttypeEnc, thrownTypeinfo⟩
    siteLoopReads read (h.csEnc &&& 0x0f) csEnd (catchSite e h controlPc)
      (catchReads e h controlPc) (csEnd - h.csStart) h.csStart

/-- The values of `findCleanupLandingPad`. -/
def findCleanupReads (read : MemRead) (lsdaVa : ℕ) (bases : LsdaBases) (controlPc : ℕ) :
    List LsdaRead :=
  headerReads read bases lsdaVa ++ thenReads (readHeader read bases lsdaVa) fun h =>
    let csEnd := satAdd h.csStart h.csLen
    siteLoopReads read (h.csEnc &&& 0x0f) csEnd (cleanupSite h controlPc) (fun _ => [])
      (csEnd - h.csStart) h.csStart

/-- **A search is in range** exactly when it does not come upon a negative value of eight bytes. -/
theorem forall_shifts_lt_iff (m : ByteMap) (reads : List LsdaRead) :
    (∀ r ∈ reads, ∀ s ∈ r.shifts m.read, s < 64) ↔ ∀ r ∈ reads, ¬r.WideNegative m.read :=
  forall₂_congr fun r _ => r.shifts_lt_iff m

/-! ### The end of the table -/

theorem le_satAdd {a b : ℕ} (h : a < 2 ^ 64) : a ≤ satAdd a b := by
  rw [satAdd]
  omega

/-- A cursor behind another one, unless that was the last address. -/
def Ahead (c c' : ℕ) : Prop := c' < 2 ^ 64 ∧ (c < c' ∨ c' = 2 ^ 64 - 1)

theorem Ahead.le {c c' : ℕ} (h : Ahead c c') (hc : c < 2 ^ 64) : c ≤ c' := by
  obtain ⟨-, h | h⟩ := h <;> omega

theorem Ahead.trans {c c' c'' : ℕ} (hc : c < 2 ^ 64) (h : Ahead c c') (h' : Ahead c' c'') :
    Ahead c c'' := by
  have hle := h.le hc
  obtain ⟨hlt, h'⟩ := h'
  refine ⟨hlt, ?_⟩
  omega

theorem ahead_satAdd {c n : ℕ} (hn : 0 < n) : Ahead c (satAdd c n) := by
  rw [Ahead, satAdd]
  omega

theorem readByte_ahead {c b c' : ℕ} (h : readByte read c = some (b, c')) : Ahead c c' := by
  rw [readByte, Option.bind_eq_bind, Option.bind_eq_some_iff] at h
  obtain ⟨bs, -, h⟩ := h
  cases h
  exact ahead_satAdd Nat.one_pos

theorem ulebLoop_ahead {w c' : ℕ} : ∀ {rounds shift v c : ℕ}, c < 2 ^ 64 →
    ulebLoop read rounds shift v c = some (w, c') → Ahead c c'
  | 0, _, _, _, _, h => by cases h
  | rounds + 1, shift, v, c, hc, h => by
    rw [ulebLoop, Option.bind_eq_bind, Option.bind_eq_some_iff] at h
    obtain ⟨⟨b, c₁⟩, hbyte, h⟩ := h
    have h1 := readByte_ahead hbyte
    simp only at h
    split at h
    · cases h
      exact h1
    · exact h1.trans hc (ulebLoop_ahead h1.1 h)

theorem slebLoop_ahead {w : ℤ} {c' : ℕ} : ∀ {rounds shift v c : ℕ}, c < 2 ^ 64 →
    slebLoop read rounds shift v c = some (w, c') → Ahead c c'
  | 0, _, _, _, _, h => by cases h
  | rounds + 1, shift, v, c, hc, h => by
    rw [slebLoop, Option.bind_eq_bind, Option.bind_eq_some_iff] at h
    obtain ⟨⟨b, c₁⟩, hbyte, h⟩ := h
    have h1 := readByte_ahead hbyte
    simp only at h
    split at h
    · cases h
      exact h1
    · exact h1.trans hc (slebLoop_ahead h1.1 h)

theorem readEncodedValue_ahead {c encoding v s c' : ℕ} (hc : c < 2 ^ 64)
    (ho : encoding ≠ dw_eh_pe.OMIT) (h : readEncodedValue read c encoding = some (v, s, c')) :
    Ahead c c' := by
  rw [readEncodedValue, if_neg ho] at h
  simp only at h
  split at h
  · rw [Option.bind_eq_bind, Option.bind_eq_some_iff] at h
    obtain ⟨⟨w, next⟩, hread, h⟩ := h
    cases h
    exact ulebLoop_ahead hc hread
  split at h
  · rw [Option.bind_eq_bind, Option.bind_eq_some_iff] at h
    obtain ⟨⟨w, next⟩, hread, h⟩ := h
    cases h
    exact slebLoop_ahead hc hread
  · rw [Option.bind_eq_bind, Option.bind_eq_some_iff] at h
    obtain ⟨sz, hsz, h⟩ := h
    rw [Option.bind_eq_bind, Option.bind_eq_some_iff] at h
    obtain ⟨buf, -, h⟩ := h
    cases h
    have := (dwFormatSize_eq_some hsz).1
    exact ahead_satAdd (by omega)

theorem readField_ahead {format c v c' : ℕ} (hc : c < 2 ^ 64) (hf : format ≤ 0x0f)
    (h : readField read format c = some (v, c')) : Ahead c c' := by
  rw [readField] at h
  split at h
  · exact ulebLoop_ahead hc h
  · rw [Option.bind_eq_bind, Option.bind_eq_some_iff] at h
    obtain ⟨⟨raw, s, next⟩, hread, h⟩ := h
    cases h
    refine readEncodedValue_ahead hc (fun ho => ?_) hread
    rw [ho] at hf
    exact absurd hf (by decide)

/-- The four fields of a record, one after the other. -/
theorem readSite_eq_some {format c c' : ℕ} {s : RawSite}
    (h : readSite read format c = some (s, c')) :
    ∃ c₁ c₂ c₃, readField read format c = some (s.start, c₁) ∧
      readField read format c₁ = some (s.len, c₂) ∧ readField read format c₂ = some (s.pad, c₃) ∧
        readUleb128 read c₃ = some (s.action, c') := by
  have hfields : (do
      let r₁ ← readField read format c
      let r₂ ← readField read format r₁.2
      let r₃ ← readField read format r₂.2
      let r₄ ← readUleb128 read r₃.2
      some ((⟨r₁.1, r₂.1, r₃.1, r₄.1⟩ : RawSite), r₄.2)) = some (s, c') := by
    rw [readSite] at h
    split at h
    · rw [Option.bind_eq_bind, Option.bind_eq_some_iff] at h
      obtain ⟨-, -, h⟩ := h
      exact h
    · exact h
  simp only [Option.bind_eq_bind, Option.bind_eq_some_iff] at hfields
  obtain ⟨r₁, h1, r₂, h2, r₃, h3, r₄, h4, hs⟩ := hfields
  cases hs
  exact ⟨r₁.2, r₂.2, r₃.2, h1, h2, h3, h4⟩

/-- **A record takes the cursor forward.** -/
theorem readSite_ahead {format c c' : ℕ} {s : RawSite} (hc : c < 2 ^ 64) (hf : format ≤ 0x0f)
    (h : readSite read format c = some (s, c')) : Ahead c c' := by
  obtain ⟨c₁, c₂, c₃, h1, h2, h3, h4⟩ := readSite_eq_some h
  have ha1 := readField_ahead hc hf h1
  have ha2 := ha1.trans hc (readField_ahead ha1.1 hf h2)
  have ha3 := ha2.trans hc (readField_ahead ha2.1 hf h3)
  exact ha3.trans hc (ulebLoop_ahead ha3.1 h4)

/-- **The loop comes to the end of the table by itself**: more rounds than the table has bytes make
no difference. -/
theorem siteLoop_more {format csEnd : ℕ} {pick : RawSite → Option LandingPadMatch}
    (hf : format ≤ 0x0f) (hend : csEnd < 2 ^ 64) (k : ℕ) : ∀ {rounds cursor : ℕ},
    csEnd - cursor ≤ rounds →
      siteLoop read format csEnd pick (rounds + k) cursor =
        siteLoop read format csEnd pick rounds cursor
  | 0, cursor, h => by
    have hle : ¬cursor < csEnd := by omega
    cases k with
    | zero => rfl
    | succ k =>
      rw [Nat.zero_add]
      exact if_neg hle
  | rounds + 1, cursor, h => by
    rw [Nat.add_right_comm, siteLoop, siteLoop]
    split
    · rename_i hlt
      cases hs : readSite read format cursor with
      | none => rfl
      | some r =>
        have ha := readSite_ahead (by omega) hf hs
        have hround : csEnd - r.2 ≤ rounds := by
          obtain ⟨-, ha | ha⟩ := ha <;> omega
        simp only [Option.bind_eq_bind, Option.bind_some, siteLoop_more hf hend k hround]
    · rfl

end Wie
