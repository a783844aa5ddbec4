import Wie.Stubs.MultiByte

/-!
# Code pages

`multibyte_to_wide` decodes the bytes of a code page, and `wide_to_multibyte` encodes units again.
Both have the single-byte pages in two groups, the page 1252 and the identity, but not the same
ones: page 0 is decoded as the identity and encoded as the page 1252.

## Main definitions

* `fromUtf16` — the text of units
* `encodePage`, `wideToMultibyte` — the encoder of the source

## Main results

* `fromUtf16_encodeUtf16` — units of a text are decoded to it
* `wideToMultibyte_encodeUtf16` — a zero at the end does not change what is encoded
* `wideToMultibyte_multibyteToWide_iff` — which bytes come back
-/

namespace Wie

/-! ### UTF-16 -/

/-- `String::from_utf16`. -/
def fromUtf16 : List UInt16 → Option (List Char)
  | [] => some []
  | u :: us =>
    if u.toNat < 0xd800 ∨ 0xdfff < u.toNat then (fromUtf16 us).map (Char.ofNat u.toNat :: ·)
    else if 0xdc00 ≤ u.toNat then none
    else
      match us with
      | [] => none
      | v :: vs =>
        if v.toNat < 0xdc00 ∨ 0xdfff < v.toNat then none
        else (fromUtf16 vs).map
          (Char.ofNat (0x10000 + u.toNat % 0x400 * 0x400 + v.toNat % 0x400) :: ·)

theorem fromUtf16_single {u : UInt16} (hu : u.toNat < 0xd800 ∨ 0xdfff < u.toNat)
    (us : List UInt16) : fromUtf16 (u :: us) = (fromUtf16 us).map (Char.ofNat u.toNat :: ·) := by
  exact (fromUtf16.eq_def _).trans (if_pos hu)

theorem fromUtf16_pair {u v : UInt16} (hu : 0xd800 ≤ u.toNat ∧ u.toNat < 0xdc00)
    (hv : 0xdc00 ≤ v.toNat ∧ v.toNat ≤ 0xdfff) (us : List UInt16) :
    fromUtf16 (u :: v :: us) = (fromUtf16 us).map
      (Char.ofNat (0x10000 + u.toNat % 0x400 * 0x400 + v.toNat % 0x400) :: ·) := by
  refine (fromUtf16.eq_def _).trans ((if_neg (by omega)).trans ((if_neg (by omega)).trans ?_))
  exact if_neg (by omega)

/-- A character is a scalar value. -/
theorem toNat_val_lt (c : Char) :
    c.val.toNat < 0xd800 ∨ 0xdfff < c.val.toNat ∧ c.val.toNat < 0x110000 := c.valid

theorem toNat_ofNat_unit {n : ℕ} (h : n < 0x10000) : (UInt16.ofNat n).toNat = n :=
  UInt16.toNat_ofNat_of_lt' h

/-- The units of a character are decoded to it, whatever comes after. -/
theorem fromUtf16_units_append (c : Char) (us : List UInt16) :
    fromUtf16 (utf16Units c ++ us) = (fromUtf16 us).map (c :: ·) := by
  have hc := toNat_val_lt c
  have hback : Char.ofNat c.val.toNat = c := Char.ofNat_toNat c
  by_cases hlow : c.val.toNat < 0x10000
  · have hu : (UInt16.ofNat c.val.toNat).toNat = c.val.toNat := toNat_ofNat_unit hlow
    rw [utf16Units, if_pos hlow, List.singleton_append, fromUtf16_single (by omega), hu, hback]
  · have hhigh : (UInt16.ofNat (0xd800 + (c.val.toNat - 0x10000) / 0x400)).toNat =
        0xd800 + (c.val.toNat - 0x10000) / 0x400 := toNat_ofNat_unit (by omega)
    have hlow' : (UInt16.ofNat (0xdc00 + (c.val.toNat - 0x10000) % 0x400)).toNat =
        0xdc00 + (c.val.toNat - 0x10000) % 0x400 := toNat_ofNat_unit (by omega)
    have hjoin : 0x10000 + (0xd800 + (c.val.toNat - 0x10000) / 0x400) % 0x400 * 0x400 +
        (0xdc00 + (c.val.toNat - 0x10000) % 0x400) % 0x400 = c.val.toNat := by omega
    rw [utf16Units, if_neg hlow, List.cons_append, List.singleton_append,
      fromUtf16_pair (by omega) (by omega), hhigh, hlow', hjoin, hback]

/-- **Units of a text are decoded to it.** -/
theorem fromUtf16_encodeUtf16 (s : List Char) : fromUtf16 (encodeUtf16 s) = some s := by
  induction s with
  | nil => rfl
  | cons c s ih =>
    rw [encodeUtf16, List.flatMap_cons, fromUtf16_units_append, ← encodeUtf16, ih]
    rfl

theorem encodeUtf16_append (s t : List Char) :
    encodeUtf16 (s ++ t) = encodeUtf16 s ++ encodeUtf16 t := List.flatMap_append

/-- The last unit of a character is zero only in that of the character zero. -/
theorem getLast?_utf16Units (c : Char) :
    (utf16Units c).getLast? = some 0 ↔ c = Char.ofNat 0 := by
  have hc := toNat_val_lt c
  have hzero : c = Char.ofNat 0 ↔ c.val.toNat = 0 := by
    refine ⟨fun h => by rw [h]; rfl, fun h => ?_⟩
    rw [← Char.ofNat_toNat c]
    exact congrArg Char.ofNat h
  rw [hzero]
  by_cases hlow : c.val.toNat < 0x10000
  · rw [utf16Units, if_pos hlow, List.getLast?_singleton, Option.some.injEq, ← UInt16.toNat_inj,
      toNat_ofNat_unit hlow]
    rfl
  · rw [utf16Units, if_neg hlow, List.getLast?_cons_cons, List.getLast?_singleton,
      Option.some.injEq, ← UInt16.toNat_inj, toNat_ofNat_unit (by omega)]
    exact iff_of_false (by rw [UInt16.toNat_zero]; omega) (by omega)

/-! ### Encoding -/

/-- `unicode_to_cp1252_byte`. -/
def unicodeToCp1252Byte (ch : Char) : Option UInt8 :=
  let cp := ch.val.toNat
  if cp ≤ 0x7f ∨ 0xa0 ≤ cp ∧ cp ≤ 0xff then some (.ofNat cp)
  else (CP1252_80_9F.findIdx? fun mapped => mapped.toNat = cp).map fun i => .ofNat (0x80 + i)

/-- A question mark takes the place of a character that a page does not have. -/
def QUESTION : UInt8 := 0x3f

/-- `encode_acp`. -/
def encodeAcp (text : List Char) : List UInt8 :=
  text.map fun ch => (unicodeToCp1252Byte ch).getD QUESTION

/-- A character in the pages that are encoded as the identity. -/
def encodeIdentity (c : Char) : UInt8 :=
  if c.val.toNat ≤ 0xff then .ofNat c.val.toNat else QUESTION

/-- The encoding of a text that `wide_to_multibyte` chooses. -/
def encodePage (codePage : ℕ) (text : List Char) : List UInt8 :=
  if codePage = 0 ∨ codePage = CP_ACP then encodeAcp text
  else if codePage = CP_OEMCP ∨ codePage = 1 ∨ codePage = 2 ∨ codePage = 3 then
    text.map encodeIdentity
  else asBytes text

/-- `wide_to_multibyte`. -/
def wideToMultibyte (codePage : ℕ) (units : List UInt16) : Option (List UInt8) := do
  let hasNul := units.getLast? = some 0
  let textUnits := if hasNul then units.dropLast else units
  let text ← fromUtf16 textUnits
  let bytes := encodePage codePage text
  some (if hasNul then bytes ++ [0] else bytes)

/-! ### Zeros at the end -/

theorem encodePage_append (codePage : ℕ) (s t : List Char) :
    encodePage codePage (s ++ t) = encodePage codePage s ++ encodePage codePage t := by
  rw [encodePage, encodePage, encodePage]
  split_ifs
  · exact List.map_append
  · exact List.map_append
  · exact List.flatMap_append

theorem encodePage_zero (codePage : ℕ) : encodePage codePage [Char.ofNat 0] = [0] := by
  rw [encodePage]
  split_ifs <;> rfl

/-- The units of a text end in zero where the text ends in the character zero. -/
theorem encodeUtf16_concat (s : List Char) (c : Char) :
    (encodeUtf16 (s ++ [c])).getLast? = some 0 ↔ c = Char.ofNat 0 := by
  have hone : encodeUtf16 [c] = utf16Units c := List.append_nil _
  have hne : utf16Units c ≠ [] := by
    rw [utf16Units]
    split_ifs <;> exact List.cons_ne_nil _ _
  rw [encodeUtf16_append, hone, List.getLast?_append_of_ne_nil _ hne, getLast?_utf16Units]

theorem wideToMultibyte_of_zero {units : List UInt16} (codePage : ℕ)
    (h : units.getLast? = some 0) :
    wideToMultibyte codePage units =
      (fromUtf16 units.dropLast).map fun s => encodePage codePage s ++ [0] := by
  simp [wideToMultibyte, h, Option.map_eq_bind]

theorem wideToMultibyte_of_ne {units : List UInt16} (codePage : ℕ)
    (h : units.getLast? ≠ some 0) :
    wideToMultibyte codePage units = (fromUtf16 units).map (encodePage codePage) := by
  simp [wideToMultibyte, h, Option.map_eq_bind]

/-- **A zero at the end is encoded like any other character.** -/
theorem wideToMultibyte_encodeUtf16 (codePage : ℕ) (s : List Char) :
    wideToMultibyte codePage (encodeUtf16 s) = some (encodePage codePage s) := by
  rcases s.eq_nil_or_concat' with rfl | ⟨s, c, rfl⟩
  · rw [wideToMultibyte_of_ne codePage (by simp [encodeUtf16]), fromUtf16_encodeUtf16]
    rfl
  by_cases hc : c = Char.ofNat 0
  · have hlast := (encodeUtf16_concat s c).mpr hc
    have hunit : encodeUtf16 [Char.ofNat 0] = [0] := rfl
    have hdrop : (encodeUtf16 (s ++ [c])).dropLast = encodeUtf16 s := by
      rw [hc, encodeUtf16_append, hunit, List.dropLast_concat]
    rw [wideToMultibyte_of_zero codePage hlast, hdrop, fromUtf16_encodeUtf16, hc,
      encodePage_append, encodePage_zero]
    rfl
  · rw [wideToMultibyte_of_ne codePage (mt (encodeUtf16_concat s c).mp hc), fromUtf16_encodeUtf16]
    rfl

/-! ### There and back -/

/-- The text of bytes that are decoded one by one. -/
def textOf (decode : UInt8 → UInt16) (bytes : List UInt8) : List Char :=
  bytes.map fun b => Char.ofNat (decode b).toNat

/-- A unit that is not a surrogate is a character. -/
theorem utf16Units_ofNat {u : UInt16} (hu : u.toNat < 0xd800) :
    utf16Units (Char.ofNat u.toNat) = [u] := by
  have hval : (Char.ofNat u.toNat).val.toNat = u.toNat := by
    rw [Char.ofNat, dif_pos (.inl hu)]
    rfl
  rw [utf16Units, hval, if_pos (by omega), UInt16.ofNat_toNat]

theorem encodeUtf16_textOf {decode : UInt8 → UInt16} (h : ∀ b, (decode b).toNat < 0xd800)
    (bytes : List UInt8) : encodeUtf16 (textOf decode bytes) = bytes.map decode := by
  induction bytes with
  | nil => rfl
  | cons b bytes ih =>
    rw [textOf, List.map_cons, encodeUtf16, List.flatMap_cons, utf16Units_ofNat (h b),
      ← encodeUtf16, ← textOf, ih]
    rfl

/-- What is decoded and encoded byte by byte comes back where every byte does. -/
theorem wideToMultibyte_map_iff {decode : UInt8 → UInt16} (h : ∀ b, (decode b).toNat < 0xd800)
    {codePage : ℕ} {encode : Char → UInt8} (hencode : ∀ s, encodePage codePage s = s.map encode)
    (bytes : List UInt8) :
    wideToMultibyte codePage (bytes.map decode) = some bytes ↔
      ∀ b ∈ bytes, encode (Char.ofNat (decode b).toNat) = b := by
  rw [← encodeUtf16_textOf h, wideToMultibyte_encodeUtf16, hencode, Option.some.injEq, textOf,
    List.map_map]
  nth_rewrite 2 [← List.map_id bytes]
  exact List.map_inj_left

/-- The bytes one by one, in the two tables. -/
theorem forall_byte {P : UInt8 → Prop} (h : ∀ n : Fin 256, P (.ofNat n.val)) (b : UInt8) : P b := by
  have hb := h ⟨b.toNat, b.toNat_lt⟩
  rwa [UInt8.ofNat_toNat] at hb

/-- What is read off the tables, byte by byte. -/
theorem byte_tables (b : UInt8) :
    (cp1252ByteToU16 b).toNat < 0xd800 ∧
      (unicodeToCp1252Byte (Char.ofNat (cp1252ByteToU16 b).toNat)).getD QUESTION = b ∧
      ((unicodeToCp1252Byte (Char.ofNat b.toUInt16.toNat)).getD QUESTION = b ↔
        cp1252ByteToU16 b = b.toUInt16) ∧
      encodeIdentity (Char.ofNat b.toUInt16.toNat) = b := by
  revert b
  refine forall_byte ?_
  decide +kernel

theorem cp1252_lt (b : UInt8) : (cp1252ByteToU16 b).toNat < 0xd800 := (byte_tables b).1

theorem toUInt16_lt (b : UInt8) : b.toUInt16.toNat < 0xd800 := by
  have := b.toNat_lt
  rw [UInt8.toNat_toUInt16]
  omega

/-- The table of the page 1252 has an inverse. -/
theorem unicodeToCp1252Byte_cp1252 (b : UInt8) :
    (unicodeToCp1252Byte (Char.ofNat (cp1252ByteToU16 b).toNat)).getD QUESTION = b :=
  (byte_tables b).2.1

/-- A byte that is decoded as the identity is encoded in the page 1252 as itself exactly where that
page has the identity. -/
theorem unicodeToCp1252Byte_toUInt16_iff (b : UInt8) :
    (unicodeToCp1252Byte (Char.ofNat b.toUInt16.toNat)).getD QUESTION = b ↔
      cp1252ByteToU16 b = b.toUInt16 :=
  (byte_tables b).2.2.1

theorem encodeIdentity_toUInt16 (b : UInt8) :
    encodeIdentity (Char.ofNat b.toUInt16.toNat) = b :=
  (byte_tables b).2.2.2

/-- The pages that `multibyte_to_wide` names. -/
def namedPages : List ℕ := [0, 1, 2, 3, CP_OEMCP, CP_ACP, CP_UTF8]

/-- **What comes back.** Texts in UTF-8 and the bytes of all single-byte pages do, except in page 0:
there only those that the page 1252 has as the identity. -/
theorem wideToMultibyte_multibyteToWide_iff {codePage : ℕ} (hpage : codePage ∈ namedPages)
    {bytes : List UInt8} (hutf : codePage = CP_UTF8 → (fromUtf8 bytes).isSome) :
    wideToMultibyte codePage (multibyteToWide codePage bytes) = some bytes ↔
      (codePage = 0 → ∀ b ∈ bytes, cp1252ByteToU16 b = b.toUInt16) := by
  by_cases hacp : codePage = CP_ACP
  · have hne : codePage ≠ 0 := by rw [hacp]; decide
    rw [multibyteToWide, if_pos hacp, wideToMultibyte_map_iff cp1252_lt
      (fun s => if_pos (.inr hacp) : ∀ s, encodePage codePage s = encodeAcp s)]
    exact iff_of_true (fun b _ => unicodeToCp1252Byte_cp1252 b) fun h => absurd h hne
  by_cases hutf8 : codePage = CP_UTF8
  · have hne : codePage ≠ 0 := by rw [hutf8]; decide
    obtain ⟨s, hs⟩ := Option.isSome_iff_exists.mp (hutf hutf8)
    have hwide : multibyteToWide codePage bytes = encodeUtf16 s := by
      rw [hutf8, multibyteToWide, if_neg (by decide), if_neg (by decide), if_pos rfl, hs]
    have hencode : encodePage codePage s = asBytes s := by
      rw [hutf8, encodePage, if_neg (by decide), if_neg (by decide)]
    rw [hwide, wideToMultibyte_encodeUtf16, hencode, ← fromUtf8_eq_some_iff.mp hs]
    exact iff_of_true rfl fun h => absurd h hne
  have hsingle : codePage = 0 ∨ codePage = 1 ∨ codePage = 2 ∨ codePage = 3 ∨
      codePage = CP_OEMCP := by
    simpa [namedPages, hacp, hutf8] using hpage
  rw [multibyteToWide, if_neg hacp, if_pos hsingle]
  by_cases hzero : codePage = 0
  · rw [wideToMultibyte_map_iff toUInt16_lt
      (fun s => if_pos (.inl hzero) : ∀ s, encodePage codePage s = encodeAcp s)]
    rw [forall_prop_of_true hzero]
    exact forall₂_congr fun b _ => unicodeToCp1252Byte_toUInt16_iff b
  · have hpages : ∀ s, encodePage codePage s = s.map encodeIdentity := by
      intro s
      rw [encodePage, if_neg (by omega), if_pos (by omega)]
    rw [wideToMultibyte_map_iff toUInt16_lt hpages]
    exact iff_of_true (fun b _ => encodeIdentity_toUInt16 b) fun h => absurd h hzero

/-- Page 1252, with the euro sign and a zero at the end. -/
theorem wideToMultibyte_multibyteToWide_euro :
    wideToMultibyte CP_ACP (multibyteToWide CP_ACP [0x80, 0]) = some [0x80, 0] := by
  have hpage : CP_ACP ∈ namedPages := by decide
  exact (wideToMultibyte_multibyteToWide_iff hpage (by decide)).mpr (by decide)

/-- In page 0 the byte 0x80 comes back as a question mark. -/
theorem not_wideToMultibyte_multibyteToWide :
    wideToMultibyte 0 (multibyteToWide 0 [0x80]) ≠ some [0x80] := by decide

end Wie
