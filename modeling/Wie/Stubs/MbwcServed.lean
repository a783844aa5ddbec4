import Mathlib.Data.List.GetD
import Wie.Stubs.MbwcRun

/-!
# Text to units in the guest, against the handler

Where the code does not fall back, the handler reads the same source, and its units are those of the
table. The code is right exactly where its result is that of the handler.

## Main results

* `MbwcCall.handle_eq` — what the handler does, where the code does not fall back
* `multiByteToWideChar_right_iff` — the code is right exactly where the condition holds
-/

namespace Wie

open X86

namespace MbwcCall

variable (c : MbwcCall)

/-! ### The handler -/

/-- A byte of a string, read by the handler. -/
theorem readUntilNul_succ (hsrc : c.Loaded) {i : ℕ} (hi : i < c.bytes.length) (rounds : ℕ) :
    readUntilNul c.entry.mem c.src (rounds + 1) i = if c.bytes[i].toNat = 0 then some [0]
      else (readUntilNul c.entry.mem c.src rounds (i + 1)).map (c.bytes[i] :: ·) := by
  have htop := c.src_top
  have hadd : checkedAdd c.src i = some (c.src + i) := checkedAdd_eq_some.mpr ⟨rfl, by omega⟩
  have hload : c.entry.mem.loadLe (c.src + i) 1 = some c.bytes[i].toNat := by
    rw [loadLe_one (hsrc.readable hi), hsrc.byte hi]
  simp only [readUntilNul, hadd, hload, Option.bind_eq_bind, Option.bind_some, UInt8.ofNat_toNat]

theorem readUntilNul_eq (hsrc : c.Loaded) {text : List UInt8} (htext : c.bytes = text ++ [0])
    (h0 : 0 ∉ text) {n : ℕ} : ∀ {i rounds : ℕ}, i + n = text.length → n < rounds →
      readUntilNul c.entry.mem c.src rounds i = some (c.bytes.drop i) := by
  have hlen : c.bytes.length = text.length + 1 := by rw [htext, List.length_append]; rfl
  induction n with
  | zero =>
    intro i rounds hi hr
    obtain ⟨rounds, rfl⟩ := Nat.exists_eq_succ_of_ne_zero (by omega : rounds ≠ 0)
    obtain ⟨hzero, hdrop⟩ := nul_at htext (i := i) (by omega) (by omega)
    rw [c.readUntilNul_succ hsrc (by omega), if_pos hzero, hdrop]
  | succ n ih =>
    intro i rounds hi hr
    obtain ⟨rounds, rfl⟩ := Nat.exists_eq_succ_of_ne_zero (by omega : rounds ≠ 0)
    have hlt : i < c.bytes.length := by omega
    rw [c.readUntilNul_succ hsrc hlt, if_neg (not_nul_at htext h0 (by omega) hlt),
      ih (by omega) (by omega), List.drop_eq_getElem_cons hlt]
    rfl

theorem lowU32ToI32_of_lt (h : c.cb < 2 ^ 31) :
    lowU32ToI32 (c.entry.gpr 9).toNat = (c.cb : ℕ) := if_pos h

theorem lowU32ToI32_of_le (h : 2 ^ 31 ≤ c.cb) :
    lowU32ToI32 (c.entry.gpr 9).toNat = (c.cb : ℕ) - 2 ^ 32 := if_neg (not_lt.mpr h)

/-- The handler reads the source. -/
theorem readMultibyteBytes_eq (h : ¬c.LengthFallsBack) :
    readMultibyteBytes c.entry.mem c.src (c.entry.gpr 9).toNat = some c.bytes := by
  by_cases hnull : c.src = 0
  · have hsource : SourceBytes c.entry.mem c.src c.cb c.bytes := c.source
    rw [SourceBytes, if_pos hnull] at hsource
    rw [readMultibyteBytes, if_pos hnull, hsource]
  · rw [readMultibyteBytes, if_neg hnull]
    dsimp only
    rcases c.source_cases hnull with ⟨hnul, hsrc, text, htext, h0⟩ |
      ⟨hnul, ⟨hpos, hlen, hsrc⟩ | ⟨hneg, -⟩⟩
    · have hle : c.bytes.length ≤ MAX_BYTES := by
        by_contra hlong
        exact h ⟨hnull, .inl ⟨hnul, by omega⟩⟩
      have hlen : c.bytes.length = text.length + 1 := by rw [htext, List.length_append]; rfl
      rw [c.lowU32ToI32_of_le (by omega), if_pos (by omega), readNullTerminatedBytes,
        c.readUntilNul_eq hsrc htext h0 (Nat.zero_add _) (by omega), List.drop_zero]
    · rw [c.lowU32ToI32_of_lt hpos, if_neg (by omega), if_pos (by omega), Int.toNat_natCast, ← hlen]
      exact hsrc.2
    · exact absurd ⟨hnull, .inr ⟨hnul, hneg⟩⟩ h

/-- The units of ASCII. -/
theorem encodeUtf16_ascii {bytes : List UInt8} (h : ∀ b ∈ bytes, b < 0x80) :
    encodeUtf16 (bytes.map fun b => Char.ofNat b.toNat) = bytes.map UInt8.toUInt16 := by
  induction bytes with
  | nil => rfl
  | cons b bytes ih =>
    have hb : b.toNat < 0x80 := UInt8.lt_iff_toNat_lt.mp (h b (.head _))
    have hval : (Char.ofNat b.toNat).val.toNat = b.toNat := toNat_ofNat_ascii hb
    have hone : utf16Units (Char.ofNat b.toNat) = [b.toUInt16] := by
      have hunit : UInt16.ofNat b.toNat = b.toUInt16 := by simp
      rw [utf16Units, hval, if_pos (by omega), hunit]
    rw [List.map_cons, encodeUtf16, List.flatMap_cons, hone, ← encodeUtf16,
      ih fun b' hb' => h b' (.tail _ hb')]
    rfl

/-- Its units are those of the table. -/
theorem multibyteToWide_eq (h : ¬c.FallsBack) : multibyteToWide c.codePage c.bytes = c.units := by
  rw [c.fallsBack_iff, not_or, not_not, not_or] at h
  obtain ⟨hpage, -, hascii⟩ := h
  by_cases hacp : c.codePage = CP_ACP
  · rw [multibyteToWide, units, if_pos hacp]
    simp only [if_pos hacp]
  have hunits : c.units = c.bytes.map UInt8.toUInt16 := by
    rw [units]
    simp only [if_neg hacp]
  rw [hunits, multibyteToWide, if_neg hacp]
  rcases hpage with hsingle | hutf
  · refine if_pos ?_
    rcases hsingle with hlow | he | he
    · omega
    · exact absurd he hacp
    · exact .inr (.inr (.inr (.inr he)))
  · have hsmall : ∀ b ∈ c.bytes, b < 0x80 := by
      intro b hb
      by_contra hle
      refine hascii ⟨fun hnull => ?_, hutf, b, hb, UInt8.not_lt.mp hle⟩
      have hsource : SourceBytes c.entry.mem c.src c.cb c.bytes := c.source
      rw [SourceBytes, if_pos hnull] at hsource
      rw [hsource] at hb
      exact List.not_mem_nil hb
    have hnot : ¬(c.codePage = 0 ∨ c.codePage = 1 ∨ c.codePage = 2 ∨ c.codePage = 3 ∨
        c.codePage = CP_OEMCP) := by
      rw [hutf]
      decide
    have hdecode := fromUtf8_eq_some_iff.mpr (asBytes_ascii hsmall).symm
    rw [if_neg hnot, if_pos hutf, hdecode]
    exact encodeUtf16_ascii hsmall

theorem length_units : c.units.length = c.bytes.length := List.length_map _

/-- **What the handler does**, where the code does not fall back. -/
theorem handle_eq (h : ¬c.FallsBack) : handleMultiByteToWideChar c.entry.gpr c.entry.mem =
    if c.dst = 0 ∨ c.cchSlot = 0 then some (c.bytes.length, c.entry.mem)
    else if c.cchSlot < c.bytes.length then some (0, c.entry.mem)
    else (c.entry.mem.store c.dst (unitBytes c.units)).map (c.bytes.length, ·) := by
  have hroom : 0x1000 ≤ c.rsp ∧ c.rsp + 0x38 < 2 ^ 64 := c.stack_room
  have hlen : ¬c.LengthFallsBack := fun hl => h (c.fallsBack_iff.mpr (.inr (.inl hl)))
  have harg₁ : checkedAdd (c.entry.gpr 4).toNat 0x28 = some (c.rsp + 0x28) :=
    checkedAdd_eq_some.mpr ⟨rfl, by omega⟩
  have harg₂ : checkedAdd (c.entry.gpr 4).toNat 0x30 = some (c.rsp + 0x30) :=
    checkedAdd_eq_some.mpr ⟨rfl, by omega⟩
  have hptr : c.entry.mem.loadLe (c.rsp + 0x28) 8 = some c.dst :=
    (c.rw_stack rfl (by omega) (by omega)).loadLe
  have hslot : c.entry.mem.loadLe (c.rsp + 0x30) 8 = some c.cchSlot :=
    (c.rw_stack rfl (by omega) (by omega)).loadLe
  have hread := c.readMultibyteBytes_eq hlen
  have hunits := c.multibyteToWide_eq h
  rw [src] at hread
  rw [codePage] at hunits
  simp only [handleMultiByteToWideChar, harg₁, harg₂, hptr, hslot, hread, hunits, length_units,
    Option.bind_eq_bind, Option.bind_some]

/-! ### The units -/

theorem unitBytes_cons (u : UInt16) (us : List UInt16) :
    unitBytes (u :: us) = toLe 2 u.toNat ++ unitBytes us := List.flatMap_cons

/-- The second byte of a unit. -/
theorem unitBytes_getD_odd (us : List UInt16) (i : ℕ) :
    (unitBytes us).getD (2 * i + 1) 0 = UInt8.ofNat ((us.getD i 0).toNat / 256) := by
  induction us generalizing i with
  | nil => simp [unitBytes]
  | cons u us ih =>
    rw [unitBytes_cons]
    cases i with
    | zero => rfl
    | succ i => exact ih i

/-- Bytes that are zero extended are units with the same numbers. -/
theorem unitBytes_toUInt16 (bytes : List UInt8) :
    unitBytes (bytes.map UInt8.toUInt16) = zeroExtend bytes := by
  induction bytes with
  | nil => rfl
  | cons b bytes ih =>
    have hb : toLe 2 b.toUInt16.toNat = [b, 0] := by
      rw [UInt8.toNat_toUInt16]
      exact Flat.toLe_two b
    rw [List.map_cons, unitBytes_cons, ih, hb]
    rfl

/-- Units of the table below 256 are the bytes. -/
theorem cp1252_of_lt (b : UInt8) (h : (cp1252ByteToU16 b).toNat < 256) :
    cp1252ByteToU16 b = b.toUInt16 := by
  have hall : ∀ n : Fin 256, (cp1252ByteToU16 (.ofNat n.val)).toNat < 256 →
      cp1252ByteToU16 (.ofNat n.val) = (UInt8.ofNat n.val).toUInt16 := by decide +kernel
  have hb := hall ⟨b.toNat, b.toNat_lt⟩
  rw [UInt8.ofNat_toNat] at hb
  exact hb h

/-- The units are those of the table, or of the table that is the identity. -/
theorem units_eq_iff : c.units = c.bytes.map UInt8.toUInt16 ↔
    (c.codePage = CP_ACP → ∀ b ∈ c.bytes, cp1252ByteToU16 b = b.toUInt16) := by
  rw [units, List.map_inj_left]
  constructor
  · intro h hacp b hb
    have := h b hb
    rwa [if_pos hacp] at this
  · intro h b hb
    split_ifs with hacp
    · exact h hacp b hb
    · rfl

/-- What the handler writes as the second byte of a unit. -/
theorem byte_put_units_odd (m : Flat) {i : ℕ} (hi : i < c.bytes.length) :
    (m.put c.dst (unitBytes c.units)).byte (c.dst + 2 * i + 1) =
      UInt8.ofNat ((c.units.getD i 0).toNat / 256) := by
  have hlt : 2 * i + 1 < (unitBytes c.units).length := by
    rw [CwdCall.length_unitBytes, length_units]
    omega
  rw [← unitBytes_getD_odd, Nat.add_assoc, Flat.byte_put hlt, List.getD_eq_getElem _ _ hlt]

/-- A unit is below 256 if its second byte is zero. -/
theorem unit_lt (u : UInt16) (h : UInt8.ofNat (u.toNat / 256) = 0) : u.toNat < 256 := by
  have hu := u.toNat_lt
  have hn := congrArg UInt8.toNat h
  have hzero : (0 : UInt8).toNat = 0 := rfl
  rw [UInt8.toNat_ofNat', hzero, Nat.mod_eq_of_lt (by omega)] at hn
  omega

/-- What the loop writes is what the handler writes. -/
theorem widen_agrees_iff (hsrc : c.Loaded) :
    (c.entry.mem.widen c.src c.dst c.bytes.length).byte =
        (c.entry.mem.put c.dst (unitBytes c.units)).byte ↔
      (c.codePage = CP_ACP → ∀ b ∈ c.bytes, cp1252ByteToU16 b = b.toUInt16) ∧
        c.entry.mem.Undisturbed c.src c.dst c.bytes.length := by
  have hwide : c.entry.mem.Undisturbed c.src c.dst c.bytes.length ↔
      (c.entry.mem.widen c.src c.dst c.bytes.length).byte =
        (c.entry.mem.put c.dst (zeroExtend c.bytes)).byte := by
    have h := Flat.widen_eq_put_iff (m := c.entry.mem) (a := c.src) (b := c.dst)
      (n := c.bytes.length)
    rw [hsrc.bytes_eq] at h
    exact h.symm
  constructor
  · intro h
    have hunits : c.units = c.bytes.map UInt8.toUInt16 := by
      rw [units, List.map_inj_left]
      intro b hb
      split_ifs with hacp
      · obtain ⟨i, hi, rfl⟩ := List.getElem_of_mem hb
        have hx := congrFun h (c.dst + 2 * i + 1)
        rw [Flat.byte_widen_odd hi, c.byte_put_units_odd _ hi] at hx
        have hget : c.units.getD i 0 = cp1252ByteToU16 c.bytes[i] := by
          rw [List.getD_eq_getElem _ _ (by rwa [length_units])]
          simp [units, hacp]
        rw [hget] at hx
        exact cp1252_of_lt _ (unit_lt _ hx.symm)
      · rfl
    rw [hunits, unitBytes_toUInt16] at h
    exact ⟨c.units_eq_iff.mp hunits, hwide.mpr h⟩
  · rintro ⟨hunits, hund⟩
    rw [c.units_eq_iff.mpr hunits, unitBytes_toUInt16]
    exact hwide.mp hund

/-! ### When the code is right -/

theorem rsp_ne (v : BitVec 64) : v ≠ v + 8 := by
  intro h
  have := congrArg BitVec.toNat h
  have hv := v.isLt
  have h8 : (8 : BitVec 64).toNat = 8 := rfl
  rw [BitVec.toNat_add, h8] at this
  omega

/-- A call that falls back is right if RCX is restored. -/
theorem right_iff_of_fallsBack (hf : c.FallsBack) : c.Right ↔ (c.entry.gpr 1).toNat < 2 ^ 32 := by
  obtain ⟨t, ht, hnv, ⟨-, hfell⟩ | ⟨hnot, -⟩⟩ := c.ends_cases
  · constructor
    · rintro ⟨t', ht', -, hfb | ⟨value, mem, -, hret⟩⟩
      · cases ht'.unique ht
        have hrcx := hfell.rcx
        rw [hfb.gpr 1 (by decide), codePage] at hrcx
        omega
      · cases ht'.unique ht
        exact absurd ((hfell.gpr 4 (by decide)).symm.trans hret.rsp) (rsp_ne _)
    · intro hlt
      refine ⟨t, ht, hnv, .inl ⟨hfell.rip, ?_, hfell.mem⟩⟩
      intro r hr
      rcases List.mem_cons.mp hr with rfl | hr
      · refine BitVec.eq_of_toNat_eq ?_
        rw [hfell.rcx, codePage, Nat.mod_eq_of_lt hlt]
      · exact hfell.gpr r hr
  · exact absurd hf hnot

/-- A call that does not is right if its result is that of the handler. -/
theorem right_iff_of_not_fallsBack (hf : ¬c.FallsBack) : c.Right ↔ ∃ mem,
    handleMultiByteToWideChar c.entry.gpr c.entry.mem = some (c.result.1, mem) ∧
      ∀ x, x ∉ c.scratch → c.result.2.byte x = mem.byte x := by
  obtain ⟨t, ht, hnv, ⟨h, -⟩ | ⟨-, hret⟩⟩ := c.ends_cases
  · exact absurd h hf
  · constructor
    · rintro ⟨t', ht', -, hfb | ⟨value, mem, hh, hret'⟩⟩
      · cases ht'.unique ht
        exact absurd ((hfb.gpr 4 (by decide)).symm.trans hret.rsp) (rsp_ne _)
      · cases ht'.unique ht
        refine ⟨mem, ?_, fun x hx => (hret.mem x hx).symm.trans (hret'.mem x hx)⟩
        rw [hh, ← hret'.rax, hret.rax]
    · rintro ⟨mem, hh, hmem⟩
      exact ⟨t, ht, hnv, .inr ⟨_, mem, hh, hret.rip, hret.rsp, hret.rax,
        fun x hx => (hret.mem x hx).trans (hmem x hx)⟩⟩

/-- A source that is measured is in memory, and its length fits in 31 bits. -/
theorem loaded_of_ne_nil (h : ¬c.LengthFallsBack) (hne : c.bytes ≠ []) :
    c.Loaded ∧ c.bytes.length < 2 ^ 31 := by
  by_cases hnull : c.src = 0
  · have hsource : SourceBytes c.entry.mem c.src c.cb c.bytes := c.source
    rw [SourceBytes, if_pos hnull] at hsource
    exact absurd hsource hne
  · rcases c.source_cases hnull with ⟨hnul, hsrc, -⟩ | ⟨-, ⟨hpos, hlen, hsrc⟩ | ⟨-, hnil⟩⟩
    · have hle : ¬MAX_BYTES < c.bytes.length := fun hlong => h ⟨hnull, .inl ⟨hnul, hlong⟩⟩
      have hmax : MAX_BYTES = 32768 := rfl
      exact ⟨hsrc, by omega⟩
    · exact ⟨hsrc, by omega⟩
    · exact absurd hnil hne

/-- The loop and the handler leave the scratch of the code alone. -/
theorem agree_off_iff {m m' : Flat} (h : ∀ x, x ∈ c.scratch → m.byte x = m'.byte x) :
    (∀ x, x ∉ c.scratch → m.byte x = m'.byte x) ↔ m.byte = m'.byte := by
  refine ⟨fun hoff => funext fun x => ?_, fun heq x _ => congrFun heq x⟩
  by_cases hx : x ∈ c.scratch
  · exact h x hx
  · exact hoff x hx

/-- The result of the code is that of the handler. -/
def Agrees : Prop := ∃ mem,
  handleMultiByteToWideChar c.entry.gpr c.entry.mem = some (c.result.1, mem) ∧
    ∀ x, x ∉ c.scratch → c.result.2.byte x = mem.byte x

/-- Nothing is to be written. -/
theorem agrees_of_empty (hf : ¬c.FallsBack) (h : c.dst = 0 ∨ c.bytes = []) : c.Agrees := by
  have hres : c.result = (c.bytes.length, c.entry.mem) :=
    if_pos (h.elim (fun hz => .inr (.inl hz)) .inl)
  rw [Agrees, c.handle_eq hf, hres]
  by_cases hnone : c.dst = 0 ∨ c.cchSlot = 0
  · rw [if_pos hnone]
    exact ⟨_, rfl, fun _ _ => rfl⟩
  · have hnil : c.bytes = [] := h.resolve_left fun hz => hnone (.inl hz)
    have hunits : unitBytes c.units = [] := by rw [units, hnil]; rfl
    have hstore : c.entry.mem.store c.dst [] = some c.entry.mem := by
      rw [Flat.Rw.store [] fun x h1 h2 => absurd h2 (not_lt.mpr h1), Flat.put_nil]
    rw [if_neg hnone, hunits, hstore, hnil, List.length_nil, if_neg (Nat.not_lt_zero _)]
    exact ⟨_, rfl, fun _ _ => rfl⟩

/-- The handler writes. -/
theorem handle_write (hf : ¬c.FallsBack) (hnull : c.dst ≠ 0) (hslot : c.cchSlot ≠ 0)
    (hle : c.bytes.length ≤ c.cchSlot) : handleMultiByteToWideChar c.entry.gpr c.entry.mem =
      (c.entry.mem.store c.dst (unitBytes c.units)).map (c.bytes.length, ·) := by
  rw [c.handle_eq hf, if_neg (not_or.mpr ⟨hnull, hslot⟩), if_neg (not_lt.mpr hle)]

/-- What is above the lower half of the last argument makes it greater than any length. -/
theorem length_lt_slot (hlt : c.bytes.length < 2 ^ 31) (hslot : c.cchSlot ≠ c.cch) :
    c.bytes.length < c.cchSlot := by
  have hcch : c.cch = c.cchSlot % 2 ^ 32 := rfl
  omega

theorem length_unitBytes_units : (unitBytes c.units).length = 2 * c.bytes.length := by
  rw [CwdCall.length_unitBytes, length_units]

/-- The destination has no units. -/
theorem agrees_of_cch_zero (hf : ¬c.FallsBack) (hnull : c.dst ≠ 0) (hne : c.bytes ≠ [])
    (hcch : c.cch = 0) : c.Agrees ↔ c.cchSlot = 0 ∨ c.entry.mem.Rw c.dst (2 * c.bytes.length) ∧
      ∀ x, x ∉ c.scratch →
        (c.entry.mem.put c.dst (unitBytes c.units)).byte x = c.entry.mem.byte x := by
  have hlen : ¬c.LengthFallsBack := fun hl => hf (c.fallsBack_iff.mpr (.inr (.inl hl)))
  have hres : c.result = (c.bytes.length, c.entry.mem) := if_pos (.inr (.inr hcch))
  rw [Agrees, hres]
  by_cases hslot : c.cchSlot = 0
  · rw [c.handle_eq hf, if_pos (.inr hslot)]
    exact iff_of_true ⟨_, rfl, fun _ _ => rfl⟩ (.inl hslot)
  rw [or_iff_right hslot, c.handle_write hf hnull hslot
    (c.length_lt_slot (c.loaded_of_ne_nil hlen hne).2 (hcch ▸ hslot)).le]
  constructor
  · rintro ⟨mem, hh, hmem⟩
    obtain ⟨mem', hstore, he⟩ := Option.map_eq_some_iff.mp hh
    cases he
    obtain ⟨rfl, hrw⟩ := Flat.store_eq_some hstore
    rw [length_unitBytes_units] at hrw
    exact ⟨hrw, fun x hx => (hmem x hx).symm⟩
  · rintro ⟨hrw, hmem⟩
    rw [← length_unitBytes_units] at hrw
    rw [hrw.store]
    exact ⟨_, rfl, fun x hx => (hmem x hx).symm⟩

/-- The destination is too short. -/
theorem agrees_of_short (hf : ¬c.FallsBack) (hnull : c.dst ≠ 0) (hne : c.bytes ≠ [])
    (hcch : c.cch ≠ 0) (hshort : c.cch < c.bytes.length) : c.Agrees ↔ c.cchSlot = c.cch := by
  have hlen : ¬c.LengthFallsBack := fun hl => hf (c.fallsBack_iff.mpr (.inr (.inl hl)))
  have hres : c.result = (0, c.entry.mem) :=
    (if_neg (not_or.mpr ⟨hne, not_or.mpr ⟨hnull, hcch⟩⟩)).trans (if_pos hshort)
  have hslot : c.cchSlot ≠ 0 := fun hz => hcch (by rw [cch, hz]; rfl)
  rw [Agrees, hres]
  by_cases hsame : c.cchSlot = c.cch
  · rw [c.handle_eq hf, if_neg (not_or.mpr ⟨hnull, hslot⟩), if_pos (hsame ▸ hshort)]
    exact iff_of_true ⟨_, rfl, fun _ _ => rfl⟩ hsame
  · refine iff_of_false ?_ hsame
    rintro ⟨mem, hh, -⟩
    rw [c.handle_write hf hnull hslot
      (c.length_lt_slot (c.loaded_of_ne_nil hlen hne).2 hsame).le] at hh
    obtain ⟨mem', -, he⟩ := Option.map_eq_some_iff.mp hh
    exact absurd (congrArg Prod.fst he) (by
      change c.bytes.length ≠ 0
      omega)

/-- The destination takes the source. -/
theorem agrees_of_fits (hf : ¬c.FallsBack) (hnull : c.dst ≠ 0) (hne : c.bytes ≠ [])
    (hcch : c.cch ≠ 0) (hfit : c.bytes.length ≤ c.cch) : c.Agrees ↔
      (c.codePage = CP_ACP → ∀ b ∈ c.bytes, cp1252ByteToU16 b = b.toUInt16) ∧
        c.entry.mem.Undisturbed c.src c.dst c.bytes.length := by
  have hroom : 0x1000 ≤ c.rsp := c.stack_room.1
  have hlen : ¬c.LengthFallsBack := fun hl => hf (c.fallsBack_iff.mpr (.inr (.inl hl)))
  have hres : c.result = (c.bytes.length, c.entry.mem.widen c.src c.dst c.bytes.length) :=
    (if_neg (not_or.mpr ⟨hne, not_or.mpr ⟨hnull, hcch⟩⟩)).trans (if_neg (not_lt.mpr hfit))
  have hslot : c.cchSlot ≠ 0 := fun hz => hcch (by rw [cch, hz]; rfl)
  have hle : c.cch ≤ c.cchSlot := Nat.mod_le _ _
  have hrw : c.entry.mem.Rw c.dst (unitBytes c.units).length := by
    rw [length_unitBytes_units]
    exact (c.target hnull hfit).1
  have hapart : c.dst + 2 * c.bytes.length ≤ c.rsp - 0x1000 ∨ c.rsp + 8 ≤ c.dst :=
    c.target_apart hnull hfit
  have hoff (x : ℕ) (hx : x ∈ c.scratch) :
      (c.entry.mem.widen c.src c.dst c.bytes.length).byte x =
        (c.entry.mem.put c.dst (unitBytes c.units)).byte x := by
    obtain ⟨h1, h2⟩ := hx
    rw [Flat.byte_widen_of_notMem (by omega), Flat.byte_put_of_notMem]
    rw [length_unitBytes_units]
    omega
  rw [← c.widen_agrees_iff (c.loaded_of_ne_nil hlen hne).1, ← c.agree_off_iff hoff, Agrees, hres,
    c.handle_write hf hnull hslot (hfit.trans hle), hrw.store]
  constructor
  · rintro ⟨mem, hh, hmem⟩
    rw [Option.map_some, Option.some.injEq, Prod.mk.injEq] at hh
    rw [hh.2]
    exact hmem
  · intro h
    exact ⟨_, rfl, h⟩

/-- **The code is right exactly where the condition holds.** -/
theorem right_iff : c.Right ↔ c.Served := by
  by_cases hf : c.FallsBack
  · rw [c.right_iff_of_fallsBack hf]
    simp only [Served, hf, true_imp_iff, not_true, false_imp_iff, and_true]
  rw [c.right_iff_of_not_fallsBack hf, ← Agrees]
  simp only [Served, hf, false_imp_iff, true_and, not_false_eq_true, true_imp_iff]
  by_cases hempty : c.dst = 0 ∨ c.bytes = []
  · have hvac {P : Prop} : c.dst ≠ 0 → c.bytes ≠ [] → P :=
      fun h1 h2 => absurd hempty (not_or.mpr ⟨h1, h2⟩)
    exact iff_of_true (c.agrees_of_empty hf hempty) hvac
  obtain ⟨hnull, hne⟩ := not_or.mp hempty
  rw [imp_iff_right hnull, imp_iff_right hne]
  by_cases hcch : c.cch = 0
  · rw [if_pos hcch]
    exact c.agrees_of_cch_zero hf hnull hne hcch
  rw [if_neg hcch]
  by_cases hshort : c.cch < c.bytes.length
  · rw [if_pos hshort]
    exact c.agrees_of_short hf hnull hne hcch hshort
  · rw [if_neg hshort]
    exact c.agrees_of_fits hf hnull hne hcch (not_lt.mp hshort)

end MbwcCall

/-- **When the code in the guest is right**: exactly when the condition holds of the call. -/
theorem multiByteToWideChar_right_iff (c : MbwcCall) : c.Right ↔ c.Served := c.right_iff

/-! ### Calls with a buffer -/

/-- Memory with a source at `0x20000`, and a destination at `0x21000` for as many units. -/
def bufferMemory (bytes : List UInt8) : Flat :=
  ((Flat.blank.put 0x20000 bytes).set 0x30028 8 0x21000).set 0x30030 8 bytes.length

theorem get_bufferMemory {bytes : List UInt8} (h : bytes.length ≤ 0x100) :
    (bufferMemory bytes).get 0x30028 8 = 0x21000 ∧
      (bufferMemory bytes).get 0x30030 8 = bytes.length := by
  constructor
  · rw [bufferMemory, Flat.get_set_of_disjoint (by omega), Flat.get_set_of_lt (by decide)]
  · rw [bufferMemory, Flat.get_set_of_lt (by omega)]

theorem load_bufferMemory {bytes : List UInt8} (h : bytes.length ≤ 0x100) :
    (bufferMemory bytes).load 0x20000 bytes.length = some bytes := by
  have hbytes : (bufferMemory bytes).bytes 0x20000 bytes.length =
      (Flat.blank.put 0x20000 bytes).bytes 0x20000 bytes.length := by
    refine Flat.bytes_congr fun x h1 h2 => ?_
    rw [bufferMemory, Flat.byte_set_of_notMem (by omega), Flat.byte_set_of_notMem (by omega)]
  rw [Flat.load_eq fun _ _ _ => rfl, hbytes, Flat.bytes_put]

/-- The machine that calls with a code page, on some bytes. -/
def bufferEntry (page : BitVec 64) (bytes : List UInt8) : State where
  gpr := Function.update (Function.update (Function.update (Function.update (fun _ => 0) 1 page)
    8 0x20000) 9 (.ofNat 64 bytes.length)) 4 0x30000
  flags := ⟨false, false, false, false⟩
  rip := 0x5000
  mem := bufferMemory bytes

section

variable (page : BitVec 64) {bytes : List UInt8}

theorem bufferEntry_code_top : 0x5000 + 284 ≤ 2 ^ 64 := by omega

theorem bufferEntry_fallback : 0x9000 < 2 ^ 64 ∧ (0x9000 < 0x5000 ∨ 0x5000 + 284 ≤ 0x9000) :=
  ⟨by omega, .inr (by omega)⟩

theorem bufferEntry_stack_room : 0x1000 ≤ ((bufferEntry page bytes).gpr 4).toNat ∧
    ((bufferEntry page bytes).gpr 4).toNat + 0x38 < 2 ^ 64 := by
  change 0x1000 ≤ 0x30000 ∧ 0x30000 + 0x38 < 2 ^ 64
  decide

theorem bufferEntry_outside (h : bytes.length ≤ 0x100) :
    (bufferEntry page bytes).mem.get ((bufferEntry page bytes).gpr 4).toNat 8 < 0x5000 := by
  have hzero : (bufferMemory bytes).get 0x30000 8 = Flat.blank.get 0x30000 8 :=
    Flat.get_congr fun x h1 h2 => by
      rw [bufferMemory, Flat.byte_set_of_notMem (by omega), Flat.byte_set_of_notMem (by omega),
        Flat.byte_put_of_notMem (by omega)]
  change (bufferMemory bytes).get 0x30000 8 < 0x5000
  rw [hzero]
  decide

theorem bufferEntry_source (h : bytes.length ≤ 0x100) :
    SourceBytes (bufferEntry page bytes).mem ((bufferEntry page bytes).gpr 8).toNat
      (((bufferEntry page bytes).gpr 9).toNat % 2 ^ 32) bytes := by
  have hlen : (BitVec.ofNat 64 bytes.length).toNat % 2 ^ 32 = bytes.length := by
    rw [BitVec.toNat_ofNat]
    omega
  change SourceBytes (bufferMemory bytes) 0x20000 ((BitVec.ofNat 64 bytes.length).toNat % 2 ^ 32)
    bytes
  rw [hlen, SourceBytes, if_neg (by decide), if_neg (by omega), if_pos (by omega)]
  exact ⟨rfl, load_bufferMemory h⟩

theorem bufferEntry_source_top (h : bytes.length ≤ 0x100) :
    ((bufferEntry page bytes).gpr 8).toNat + bytes.length < 2 ^ 64 := by
  change 0x20000 + bytes.length < 2 ^ 64
  omega

theorem bufferEntry_source_apart (h : bytes.length ≤ 0x100) :
    ((bufferEntry page bytes).gpr 8).toNat + bytes.length ≤
      ((bufferEntry page bytes).gpr 4).toNat - 0x1000 := by
  change 0x20000 + bytes.length ≤ 0x30000 - 0x1000
  omega

theorem bufferEntry_target_top (h : bytes.length ≤ 0x100) :
    (bufferEntry page bytes).mem.get (((bufferEntry page bytes).gpr 4).toNat + 0x28) 8 +
      2 * bytes.length < 2 ^ 64 := by
  change (bufferMemory bytes).get 0x30028 8 + 2 * bytes.length < 2 ^ 64
  rw [(get_bufferMemory h).1]
  omega

theorem bufferEntry_target_apart (h : bytes.length ≤ 0x100) :
    (bufferEntry page bytes).mem.get (((bufferEntry page bytes).gpr 4).toNat + 0x28) 8 +
      2 * bytes.length ≤ ((bufferEntry page bytes).gpr 4).toNat - 0x1000 := by
  change (bufferMemory bytes).get 0x30028 8 + 2 * bytes.length ≤ 0x30000 - 0x1000
  rw [(get_bufferMemory h).1]
  omega

end

/-- A call with a code page, on some bytes. -/
def bufferCall (page : BitVec 64) (bytes : List UInt8) (h : bytes.length ≤ 0x100) : MbwcCall where
  base := 0x5000
  fallbackVa := 0x9000
  entry := bufferEntry page bytes
  bytes := bytes
  rip := rfl
  code_top := bufferEntry_code_top
  fallback := bufferEntry_fallback
  stack_room := bufferEntry_stack_room page
  stack := fun _ _ _ => rfl
  outside := .inl (bufferEntry_outside page h)
  source := bufferEntry_source page h
  source_top := bufferEntry_source_top page h
  source_apart := .inl (bufferEntry_source_apart page h)
  target := fun _ _ => ⟨fun _ _ _ => rfl, bufferEntry_target_top page h⟩
  target_apart := fun _ _ => .inl (bufferEntry_target_apart page h)

theorem cch_bufferCall {page : BitVec 64} {bytes : List UInt8} (h : bytes.length ≤ 0x100) :
    (bufferCall page bytes h).cch = bytes.length := by
  change (bufferMemory bytes).get 0x30030 8 % 2 ^ 32 = _
  rw [(get_bufferMemory h).2]
  omega

theorem dst_bufferCall {page : BitVec 64} {bytes : List UInt8} (h : bytes.length ≤ 0x100) :
    (bufferCall page bytes h).dst = 0x21000 := (get_bufferMemory h).1

/-- Letters are converted. -/
theorem multiByteToWideChar_right_letters :
    (bufferCall 1252 [0x41, 0x42] (by decide)).Right := by
  refine (multiByteToWideChar_right_iff _).mpr ⟨fun _ => ?_, fun _ _ _ => ?_⟩
  · change (1252 : BitVec 64).toNat < 2 ^ 32
    decide
  · have hlen : (bufferCall 1252 [0x41, 0x42] (by decide)).bytes.length = 2 := rfl
    rw [cch_bufferCall, if_neg (by decide), if_neg (by rw [hlen]; decide)]
    refine ⟨fun _ => ?_, ?_⟩
    · change ∀ b ∈ [0x41, 0x42], cp1252ByteToU16 b = b.toUInt16
      exact List.forall_mem_cons.mpr ⟨rfl, List.forall_mem_singleton.mpr rfl⟩
    · rw [hlen, dst_bufferCall]
      intro i hi h1 _
      change 0x21000 ≤ 0x20000 + i at h1
      omega

/-- The euro sign of the page 1252 is not. Nor is the code page given back to the handler, if there
is something in the upper half of its register. -/
theorem not_multiByteToWideChar_right :
    ¬(bufferCall 1252 [0x80] (by decide)).Right ∧
      ¬(bufferCall 0x1000003a4 [0x41] (by decide)).Right := by
  refine ⟨fun h => ?_, fun h => ?_⟩
  · have hpage : (bufferCall 1252 [0x80] (by decide)).codePage = CP_ACP := rfl
    have hcb : (bufferCall 1252 [0x80] (by decide)).cb = 1 := rfl
    have hlen : (bufferCall 1252 [0x80] (by decide)).bytes.length = 1 := rfl
    obtain ⟨-, hserved⟩ := (MbwcCall.right_iff _).mp h
    have hfalls : ¬(bufferCall 1252 [0x80] (by decide)).FallsBack := by
      rintro (hp | ⟨-, ⟨h1, -⟩ | ⟨-, h1⟩ | ⟨h1, -⟩⟩)
      · exact hp (.inl (.inr (.inl hpage)))
      · rw [hcb] at h1
        exact absurd h1 (by decide)
      · rw [hcb] at h1
        exact absurd h1 (by decide)
      · exact absurd (hpage.symm.trans h1) (by decide)
    have hcase := hserved hfalls (by rw [dst_bufferCall]; decide) (List.cons_ne_nil _ _)
    rw [cch_bufferCall, if_neg (by decide), if_neg (by rw [hlen]; decide)] at hcase
    exact absurd (hcase.1 hpage 0x80 (.head _)) (by decide)
  · obtain ⟨hserved, -⟩ := (MbwcCall.right_iff _).mp h
    have hpage : (bufferCall 0x1000003a4 [0x41] (by decide)).codePage = 932 := rfl
    have hlt := hserved (.inl (by
      rintro ((hp | hp | hp) | hp)
      · exact absurd hp (by rw [hpage]; decide)
      · exact absurd (hpage.symm.trans hp) (by decide)
      · exact absurd (hpage.symm.trans hp) (by decide)
      · exact absurd (hpage.symm.trans hp) (by decide)))
    change (0x1000003a4 : BitVec 64).toNat < 2 ^ 32 at hlt
    exact absurd hlt (by decide)

end Wie
