import Wie.Eh.LsdaLayout

/-!
# Encoded values, from what they encode

The readers of `LsdaLayout` are told what stands in memory. Here a value is written in the standard
encoding of a format, at any address, and read back: the readers give up on the tenth byte of a
LEB128 number, so that they lose the largest values of 64 bits, and a negative number of eight
bytes shifts one by 64 to extend its sign.

## Main definitions

* `DwFormat.Representable`, `DwFormat.encode` — the values of a format, and their bytes
* `encodedShifts` — the shift amounts on the way through `read_encoded_value`
* `Decodes` — a value is read back and no shift is too far

## Main results

* `ulebLoop_bounds`, `slebLoop_bounds` — what the loops can return, from any memory
* `decodes_iff` — exactly which values are read back
-/

namespace Wie

variable {m : ByteMap} {read : MemRead}

/-! ### Writing encoded values -/

namespace DwFormat

/-- The values of 64 bits that a format has. -/
def Representable (f : DwFormat) (z : ℤ) : Prop :=
  match f with
  | .uleb128 => 0 ≤ z ∧ z < 2 ^ 64
  | .sleb128 => -2 ^ 63 ≤ z ∧ z < 2 ^ 63
  | f => f.InRange z

/-- The bytes of a value: little-endian, or as few groups as it needs. -/
def encode (f : DwFormat) (z : ℤ) : List UInt8 :=
  match f with
  | .uleb128 => lebBytes (ulebGroups z.toNat)
  | .sleb128 => lebBytes (slebGroups z)
  | f => toLe f.size (asU64 z)

variable {f : DwFormat}

theorem representable_fixed (hf : f.Fixed) {z : ℤ} : f.Representable z ↔ f.InRange z := by
  obtain ⟨h1, h2⟩ := hf
  cases f <;> first | exact absurd rfl h1 | exact absurd rfl h2 | exact Iff.rfl

theorem encode_fixed (hf : f.Fixed) (z : ℤ) : f.encode z = toLe f.size (asU64 z) := by
  obtain ⟨h1, h2⟩ := hf
  cases f <;> first | exact absurd rfl h1 | exact absurd rfl h2 | rfl

end DwFormat

/-- **The encoding of a value is an encoded number**, if nine groups are enough for it. -/
theorem rawAt_encode {f : DwFormat} {a : ℕ} {z : ℤ} (hz : f.Representable z)
    (hm : m.Holds a (f.encode z)) (hu : f = .uleb128 → z < 2 ^ 63)
    (hs : f = .sleb128 → -2 ^ 62 ≤ z ∧ z < 2 ^ 62) :
    RawAt m f a z (a + (f.encode z).length) := by
  by_cases h1 : f = .uleb128
  · subst h1
    have h63 := hu rfl
    have hg : Groups 9 (ulebGroups z.toNat) := groups_ulebGroups (by omega)
    refine ⟨z.toNat, (Int.toNat_of_nonneg hz.1).symm, _, hg, hm, ?_, ?_⟩
    · rw [ulebValue_ulebGroups]
    · rw [DwFormat.encode, length_lebBytes]
  by_cases h2 : f = .sleb128
  · subst h2
    have hg : Groups 9 (slebGroups z) := groups_slebGroups (by simpa using hs rfl)
    refine ⟨_, hg, hm, ?_, ?_⟩
    · rw [slebValue_slebGroups]
    · rw [DwFormat.encode, length_lebBytes]
  have hf : f.Fixed := ⟨h1, h2⟩
  rw [DwFormat.encode_fixed hf] at hm
  rw [rawAt_fixed hf, DwFormat.encode_fixed hf, length_toLe]
  exact ⟨(DwFormat.representable_fixed hf).mp hz, hm, rfl⟩

/-! ### Shift amounts -/

/-- The shift amounts of `read_uleb128`. -/
def ulebShifts (read : MemRead) : (rounds : ℕ) → (shift cursor : ℕ) → List ℕ
  | 0, _, _ => []
  | rounds + 1, shift, cursor =>
    match readByte read cursor with
    | none => []
    | some (b, cursor) =>
      shift :: if b &&& 0x80 = 0 then [] else ulebShifts read rounds (shift + 7) cursor

/-- The shift amounts of `read_sleb128`: the last one is that of the sign. -/
def slebShifts (read : MemRead) : (rounds : ℕ) → (shift cursor : ℕ) → List ℕ
  | 0, _, _ => []
  | rounds + 1, shift, cursor =>
    match readByte read cursor with
    | none => []
    | some (b, cursor) =>
      shift ::
        if b &&& 0x80 = 0 then
          if shift + 7 < 64 ∧ b &&& 0x40 ≠ 0 then [shift + 7] else []
        else slebShifts read rounds (shift + 7) cursor

/-- The shift amounts for a value of fixed width: one for each byte, one for the bit of the sign,
and one for the bits above a negative value. -/
def fixedShifts (size v : ℕ) (signed : Bool) : List ℕ :=
  (List.range size).map (· * 8) ++
    if signed then
      (size * 8 - 1) :: if v &&& 2 ^ (size * 8 - 1) ≠ 0 then [size * 8] else []
    else []

/-- The shift amounts of `read_encoded_value`. -/
def encodedShifts (read : MemRead) (cursor encoding : ℕ) : List ℕ :=
  if encoding = dw_eh_pe.OMIT then []
  else
    let format := encoding &&& 0x0f
    if format = dw_eh_pe.ULEB128 then ulebShifts read 9 0 cursor
    else if format = dw_eh_pe.SLEB128 then slebShifts read 9 0 cursor
    else
      match dwFormatSize format with
      | none => []
      | some sz =>
        match read cursor sz with
        | none => []
        | some buf => fixedShifts sz (fromLe buf) (isSignedFormat format)

/-- The rounds of a loop bound its shifts. -/
theorem lt_of_mem_ulebShifts {s : ℕ} : ∀ {rounds shift cursor : ℕ},
    s ∈ ulebShifts read rounds shift cursor → s < shift + 7 * rounds
  | 0, _, _, h => absurd h List.not_mem_nil
  | rounds + 1, shift, cursor, h => by
    rw [ulebShifts] at h
    split at h
    · exact absurd h List.not_mem_nil
    · rcases List.mem_cons.mp h with rfl | h
      · omega
      · split at h
        · exact absurd h List.not_mem_nil
        · have := lt_of_mem_ulebShifts h
          omega

/-- The shift of the sign goes one round further. -/
theorem le_of_mem_slebShifts {s : ℕ} : ∀ {rounds shift cursor : ℕ},
    s ∈ slebShifts read rounds shift cursor → s ≤ shift + 7 * rounds
  | 0, _, _, h => absurd h List.not_mem_nil
  | rounds + 1, shift, cursor, h => by
    rw [slebShifts] at h
    split at h
    · exact absurd h List.not_mem_nil
    · rcases List.mem_cons.mp h with rfl | h
      · omega
      · split at h
        · split at h
          · rw [List.mem_singleton.mp h]
            omega
          · exact absurd h List.not_mem_nil
        · have := le_of_mem_slebShifts h
          omega

/-- **A value of fixed width is shifted too far** when it has eight bytes and a sign that is set. -/
theorem fixedShifts_lt_iff {size v : ℕ} {signed : Bool} (hs : size = 2 ∨ size = 4 ∨ size = 8)
    (hv : v < 2 ^ (8 * size)) :
    (∀ s ∈ fixedShifts size v signed, s < 64) ↔
      ¬(size = 8 ∧ signed = true ∧ 2 ^ 63 ≤ v) := by
  have hbytes : ∀ s ∈ (List.range size).map (· * 8), s < 64 := by
    intro s h
    obtain ⟨i, hi, rfl⟩ := List.mem_map.mp h
    have := List.mem_range.mp hi
    show i * 8 < 64
    omega
  have htop : v &&& 2 ^ (size * 8 - 1) ≠ 0 ↔ 2 ^ (size * 8 - 1) ≤ v := by
    refine and_top_bit ?_
    rw [show size * 8 - 1 + 1 = 8 * size by omega]
    exact hv
  rw [fixedShifts, List.forall_mem_append]
  simp only [htop]
  constructor
  · rintro ⟨-, h⟩ ⟨rfl, rfl, h63⟩
    rw [if_pos rfl, if_pos h63] at h
    exact absurd (h 64 (by simp)) (Nat.lt_irrefl 64)
  · intro h
    refine ⟨hbytes, ?_⟩
    cases signed with
    | false => simp
    | true =>
      rw [if_pos rfl, List.forall_mem_cons]
      refine ⟨by omega, ?_⟩
      split
      · rename_i hle
        rw [List.forall_mem_singleton]
        by_contra h64
        have h8 : size = 8 := by omega
        subst h8
        exact h ⟨rfl, rfl, hle⟩
      · exact fun s hs => absurd hs List.not_mem_nil

/-! ### What the loops can return -/

theorem readByte_lt {cursor b next : ℕ} (h : readByte read cursor = some (b, next)) :
    next < 2 ^ 64 := by
  rw [readByte, Option.bind_eq_bind, Option.bind_eq_some_iff] at h
  obtain ⟨bs, -, h⟩ := h
  cases h
  rw [satAdd]
  omega

theorem and_group_lt (b : ℕ) : b &&& 0x7f < 2 ^ 7 := Nat.and_lt_two_pow b (by decide)

/-- One more group of seven bits above the groups so far. -/
theorem or_group_lt {v shift : ℕ} (hv : v < 2 ^ shift) (b : ℕ) :
    v ||| (b &&& 0x7f) <<< shift < 2 ^ (shift + 7) := by
  have hb := and_group_lt b
  rw [or_shift hv, pow_add]
  nlinarith [Nat.two_pow_pos shift]

/-- The sign of a group decides in which half the number with it is. -/
theorem or_group_sign {v shift : ℕ} (hv : v < 2 ^ shift) (b : ℕ) :
    b &&& 0x40 ≠ 0 ↔ 2 ^ (shift + 6) ≤ v ||| (b &&& 0x7f) <<< shift := by
  have hsign : b &&& 0x40 = (b &&& 0x7f) &&& 2 ^ 6 := by
    rw [Nat.and_assoc]
    rfl
  rw [hsign, and_top_bit (and_group_lt b), or_shift hv, pow_add]
  constructor
  · intro h
    nlinarith [Nat.two_pow_pos shift]
  · intro h
    by_contra hlt
    nlinarith [Nat.two_pow_pos shift]

/-- **The unsigned loop returns no more bits than its rounds have**, from any memory. -/
theorem ulebLoop_bounds {w next : ℕ} : ∀ {rounds shift v cursor : ℕ}, v < 2 ^ shift →
    ulebLoop read rounds shift v cursor = some (w, next) →
      w < 2 ^ (shift + 7 * rounds) ∧ next < 2 ^ 64
  | 0, _, _, _, _, h => by cases h
  | rounds + 1, shift, v, cursor, hv, h => by
    rw [ulebLoop, Option.bind_eq_bind, Option.bind_eq_some_iff] at h
    obtain ⟨⟨b, c'⟩, hbyte, h⟩ := h
    have hlt := or_group_lt hv b
    have hle : 2 ^ (shift + 7) ≤ 2 ^ (shift + 7 * (rounds + 1)) :=
      Nat.pow_le_pow_right (by decide) (by omega)
    simp only at h
    split at h
    · cases h
      exact ⟨hlt.trans_le hle, readByte_lt hbyte⟩
    · rw [show shift + 7 * (rounds + 1) = shift + 7 + 7 * rounds by omega]
      exact ulebLoop_bounds hlt h

/-- **The signed loop** has the sign in the highest of those bits. -/
theorem slebLoop_bounds {w : ℤ} {next : ℕ} : ∀ {rounds shift v cursor : ℕ}, v < 2 ^ shift →
    slebLoop read rounds shift v cursor = some (w, next) →
      -2 ^ (shift + 7 * rounds - 1) ≤ w ∧ w < 2 ^ (shift + 7 * rounds - 1) ∧ next < 2 ^ 64
  | 0, _, _, _, _, h => by cases h
  | rounds + 1, shift, v, cursor, hv, h => by
    rw [slebLoop, Option.bind_eq_bind, Option.bind_eq_some_iff] at h
    obtain ⟨⟨b, c'⟩, hbyte, h⟩ := h
    have hlt := or_group_lt hv b
    have hsign := or_group_sign hv b
    simp only at h
    generalize v ||| (b &&& 0x7f) <<< shift = v' at h hlt hsign
    split at h
    · have hle : (2 : ℤ) ^ (shift + 6) ≤ 2 ^ (shift + 7 * (rounds + 1) - 1) :=
        pow_le_pow_right₀ (by norm_num) (by omega)
      have hdouble : 2 ^ (shift + 7) = 2 * 2 ^ (shift + 6) := by rw [pow_succ, Nat.mul_comm]
      by_cases hneg : b &&& 0x40 ≠ 0
      · have hge := hsign.mp hneg
        rw [if_pos hneg] at h
        cases h
        zify at hlt hge hdouble
        exact ⟨by linarith, by linarith, readByte_lt hbyte⟩
      · have hhalf := not_le.mp (mt hsign.mpr hneg)
        rw [if_neg hneg] at h
        cases h
        zify at hhalf
        exact ⟨by linarith, by linarith, readByte_lt hbyte⟩
    · rw [show shift + 7 * (rounds + 1) = shift + 7 + 7 * rounds by omega]
      exact slebLoop_bounds hlt h

/-! ### Which values are read back -/

/-- The value `z` is read back from `a`: sign-extended to 64 bits, with the address it was stored
at and the cursor behind it, and no shift amount reaches 64. -/
def Decodes (m : ByteMap) (byte : ℕ) (f : DwFormat) (a : ℕ) (z : ℤ) : Prop :=
  readEncodedValue m.read a byte = some (asU64 z, a, a + (f.encode z).length) ∧
    ∀ s ∈ encodedShifts m.read a byte, s < 64

/-- An encoding with a format is not the one for no value. -/
theorem ne_omit_of_format {byte : ℕ} {f : DwFormat} (hb : byte &&& 0x0f = f.code) :
    byte ≠ dw_eh_pe.OMIT := by
  rintro rfl
  cases f <;> exact absurd hb (by decide)

theorem asU64_inj {z w : ℤ} (h : asU64 z = asU64 w) (hz : -2 ^ 63 ≤ z ∧ z < 2 ^ 63)
    (hw : -2 ^ 63 ≤ w ∧ w < 2 ^ 63) : z = w := by
  unfold asU64 at h
  omega

section

variable {byte a : ℕ} {f : DwFormat} {z : ℤ}

theorem readEncodedValue_uleb (hb : byte &&& 0x0f = DwFormat.uleb128.code) :
    readEncodedValue read a byte = (readUleb128 read a).map fun r => (r.1, a, r.2) := by
  rw [readEncodedValue, if_neg (ne_omit_of_format hb)]
  simp only [hb]
  rw [if_pos (show DwFormat.uleb128.code = dw_eh_pe.ULEB128 from rfl)]
  cases readUleb128 read a <;> rfl

theorem readEncodedValue_sleb (hb : byte &&& 0x0f = DwFormat.sleb128.code) :
    readEncodedValue read a byte = (readSleb128 read a).map fun r => (asU64 r.1, a, r.2) := by
  rw [readEncodedValue, if_neg (ne_omit_of_format hb)]
  simp only [hb]
  rw [if_neg (show DwFormat.sleb128.code ≠ dw_eh_pe.ULEB128 by decide),
    if_pos (show DwFormat.sleb128.code = dw_eh_pe.SLEB128 from rfl)]
  cases readSleb128 read a <;> rfl

/-- Numbers of fixed width at an address are read with one access. -/
theorem readEncodedValue_fixed (hf : f.Fixed) (hb : byte &&& 0x0f = f.code) {v : ℕ}
    (hm : m.Holds a (toLe f.size v)) :
    readEncodedValue m.read a byte =
      some (if f.signed then signExtend f.size (v % 256 ^ f.size) else v % 256 ^ f.size, a,
        satAdd a f.size) := by
  obtain ⟨hsize, hsigned, hu, hs⟩ := dwFormatSize_code f hf
  rw [readEncodedValue, if_neg (ne_omit_of_format hb)]
  simp only [hb]
  rw [if_neg hu, if_neg hs, hsize]
  simp only [Option.bind_eq_bind, Option.bind_some, hm.read (length_toLe _ _), fromLe_toLe,
    hsigned]

theorem encodedShifts_uleb (hb : byte &&& 0x0f = DwFormat.uleb128.code) :
    encodedShifts read a byte = ulebShifts read 9 0 a := by
  rw [encodedShifts, if_neg (ne_omit_of_format hb)]
  simp only [hb]
  rfl

theorem encodedShifts_sleb (hb : byte &&& 0x0f = DwFormat.sleb128.code) :
    encodedShifts read a byte = slebShifts read 9 0 a := by
  rw [encodedShifts, if_neg (ne_omit_of_format hb)]
  simp only [hb]
  rfl

theorem encodedShifts_fixed (hf : f.Fixed) (hb : byte &&& 0x0f = f.code) {v : ℕ}
    (hm : m.Holds a (toLe f.size v)) :
    encodedShifts m.read a byte = fixedShifts f.size (v % 256 ^ f.size) f.signed := by
  obtain ⟨hsize, hsigned, hu, hs⟩ := dwFormatSize_code f hf
  rw [encodedShifts, if_neg (ne_omit_of_format hb)]
  simp only [hb]
  rw [if_neg hu, if_neg hs, hsize]
  simp only [hm.read (length_toLe _ _), fromLe_toLe, hsigned]

/-- The cursor behind what was read is an address. -/
theorem next_lt_of_read {v s next : ℕ} (hb : byte &&& 0x0f = f.code) (hm : m.Holds a (f.encode z))
    (h : readEncodedValue m.read a byte = some (v, s, next)) : next < 2 ^ 64 := by
  by_cases h1 : f = .uleb128
  · subst h1
    rw [readEncodedValue_uleb hb, Option.map_eq_some_iff] at h
    obtain ⟨⟨w, c'⟩, hread, h⟩ := h
    cases h
    exact (ulebLoop_bounds (by decide) hread).2
  by_cases h2 : f = .sleb128
  · subst h2
    rw [readEncodedValue_sleb hb, Option.map_eq_some_iff] at h
    obtain ⟨⟨w, c'⟩, hread, h⟩ := h
    cases h
    exact (slebLoop_bounds (by decide) hread).2.2
  have hf : f.Fixed := ⟨h1, h2⟩
  rw [DwFormat.encode_fixed hf] at hm
  rw [readEncodedValue_fixed hf hb hm] at h
  cases h
  rw [satAdd]
  omega

/-- Only a negative value of eight bytes is shifted too far. -/
theorem shifts_lt_iff (hb : byte &&& 0x0f = f.code) (hz : f.Representable z)
    (hm : m.Holds a (f.encode z)) :
    (∀ s ∈ encodedShifts m.read a byte, s < 64) ↔ (f = .sdata8 → 0 ≤ z) := by
  by_cases h1 : f = .uleb128
  · subst h1
    rw [encodedShifts_uleb hb]
    refine ⟨fun _ h => (by cases h), fun _ s hs => ?_⟩
    have := lt_of_mem_ulebShifts hs
    omega
  by_cases h2 : f = .sleb128
  · subst h2
    rw [encodedShifts_sleb hb]
    refine ⟨fun _ h => (by cases h), fun _ s hs => ?_⟩
    have := le_of_mem_slebShifts hs
    omega
  have hf : f.Fixed := ⟨h1, h2⟩
  rw [DwFormat.encode_fixed hf] at hm
  rw [encodedShifts_fixed hf hb hm, fixedShifts_lt_iff (size_cases hf)
    (by rw [pow_mul]; exact Nat.mod_lt _ (by positivity))]
  by_cases h8 : f = .sdata8
  · subst h8
    have hrange : -2 ^ 63 ≤ z ∧ z < 2 ^ 63 := hz
    have htop : 2 ^ 63 ≤ asU64 z % 256 ^ 8 ↔ ¬0 ≤ z := by
      unfold asU64
      omega
    show ¬(8 = 8 ∧ true = true ∧ 2 ^ 63 ≤ asU64 z % 256 ^ 8) ↔ _
    simp only [htop, true_and, not_not, forall_const]
  · refine ⟨fun _ h => absurd h h8, fun _ h => h8 ?_⟩
    obtain ⟨hs, hsig, -⟩ := h
    cases f <;> first | rfl | exact absurd hs (by decide) | exact absurd hsig (by decide)

/-- A value with ten groups is refused. -/
theorem fits_of_read (hb : byte &&& 0x0f = f.code) (hz : f.Representable z) {s next : ℕ}
    (h : readEncodedValue m.read a byte = some (asU64 z, s, next)) :
    (f = .uleb128 → z < 2 ^ 63) ∧ (f = .sleb128 → -2 ^ 62 ≤ z ∧ z < 2 ^ 62) := by
  constructor
  · rintro rfl
    rw [readEncodedValue_uleb hb, Option.map_eq_some_iff] at h
    obtain ⟨⟨w, c'⟩, hread, h⟩ := h
    have hw := (ulebLoop_bounds (by decide) hread).1
    have hval : w = asU64 z := congrArg Prod.fst h
    rw [hval, asU64_of_nonneg hz.1 hz.2] at hw
    omega
  · rintro rfl
    rw [readEncodedValue_sleb hb, Option.map_eq_some_iff] at h
    obtain ⟨⟨w, c'⟩, hread, h⟩ := h
    obtain ⟨hw1, hw2, -⟩ := slebLoop_bounds (by decide) hread
    have hval : asU64 w = asU64 z := congrArg Prod.fst h
    have hrange : -2 ^ 63 ≤ z ∧ z < 2 ^ 63 := hz
    rw [← asU64_inj hval ⟨by omega, by omega⟩ hrange]
    exact ⟨hw1, hw2⟩

/-- **Which values are read back**: all but the unsigned LEB128 numbers from `2 ^ 63` on, the
signed ones from `2 ^ 62` on to either side, the negative ones of eight bytes, and what ends with
the address space. -/
theorem decodes_iff (hb : byte &&& 0x0f = f.code) (hz : f.Representable z)
    (hm : m.Holds a (f.encode z)) :
    Decodes m byte f a z ↔
      a + (f.encode z).length < 2 ^ 64 ∧ (f = .sdata8 → 0 ≤ z) ∧ (f = .uleb128 → z < 2 ^ 63) ∧
        (f = .sleb128 → -2 ^ 62 ≤ z ∧ z < 2 ^ 62) := by
  rw [Decodes, shifts_lt_iff hb hz hm]
  constructor
  · rintro ⟨hread, hneg⟩
    exact ⟨next_lt_of_read hb hm hread, hneg, fits_of_read hb hz hread⟩
  · rintro ⟨hend, hneg, hu, hs⟩
    exact ⟨readEncodedValue_of hb (ne_omit_of_format hb) (rawAt_encode hz hm hu hs) hend hneg,
      hneg⟩

end

/-- Minus two is in the range of two bytes, and read back. -/
theorem decodes_iff_sdata2 :
    Decodes (ByteMap.write (fun _ => none) 0x1000 (DwFormat.sdata2.encode (-2))) 0x1a .sdata2
      0x1000 (-2) := by
  have hz : DwFormat.sdata2.Representable (-2) :=
    show -2 ^ 15 ≤ (-2 : ℤ) ∧ (-2 : ℤ) < 2 ^ 15 by decide
  exact (decodes_iff rfl hz (ByteMap.holds_write _ _ _)).mpr
    ⟨by decide, fun h => (by cases h), fun h => (by cases h), fun h => (by cases h)⟩

/-- **Minus two in eight bytes** is not: one is shifted by 64. -/
theorem not_decodes_sdata8 :
    ¬∀ (m : ByteMap) (byte a : ℕ) (f : DwFormat) (z : ℤ), byte &&& 0x0f = f.code →
      f.Representable z → m.Holds a (f.encode z) → Decodes m byte f a z := by
  intro h
  have hz : DwFormat.sdata8.Representable (-2) :=
    show -2 ^ 63 ≤ (-2 : ℤ) ∧ (-2 : ℤ) < 2 ^ 63 by decide
  have hm := ByteMap.holds_write (fun _ => none) 0x1000 (DwFormat.sdata8.encode (-2))
  have hdec := h _ 0x0c 0x1000 .sdata8 (-2) rfl hz hm
  exact absurd ((shifts_lt_iff rfl hz hm).mp hdec.2 rfl) (by decide)

end Wie
