import Mathlib.Data.Nat.Bitwise
import Wie.Lib.Leb128
import Wie.Eh.Lsda

/-!
# Language-specific data in memory

What the encodings of an LSDA mean, as relations between bytes in memory and what they stand for,
and that the readers of the search read exactly that. The one encoding they misread is a negative
number of eight bytes with a sign.

## Main definitions

* `RawAt`, `PointerAt` — an encoded number, and the address it stands for
* `ActionRec`, `CallSite`, `Lsda` — the contents of an LSDA
* `Lsda.At` — its layout

## Main results

* `readUleb128_at`, `readSleb128_at`, `readEncodedValue_at` — the readers
-/

namespace Wie

variable {m : ByteMap}

/-! ### Reading LEB128 -/

/-- Guest code has the lower half of the address space. -/
def ByteMap.UserSpace (m : ByteMap) : Prop := ∀ x, 2 ^ 63 ≤ x → m x = none

theorem ByteMap.UserSpace.lt (h : m.UserSpace) {a : ℕ} {b : UInt8} (hb : m a = some b) :
    a < 2 ^ 63 := by
  by_contra hn
  rw [h a (by omega)] at hb
  cases hb

theorem ByteMap.UserSpace.end_le (h : m.UserSpace) {a : ℕ} {bs : List UInt8} (hb : m.Holds a bs)
    (hne : bs ≠ []) : a + bs.length ≤ 2 ^ 63 := by
  have hpos := List.length_pos_iff.mpr hne
  have := h.lt (hb (bs.length - 1) (by omega))
  omega

theorem UlebAt.end_le (hu : m.UserSpace) {a v b : ℕ} (h : UlebAt m a v b) : b ≤ 2 ^ 63 := by
  obtain ⟨gs, hg, hm, -, rfl⟩ := h
  have hne : lebBytes gs ≠ [] := by
    rw [← List.length_pos_iff, length_lebBytes, List.length_pos_iff]
    exact hg.ne_nil
  simpa using hu.end_le hm hne

theorem SlebAt.end_le (hu : m.UserSpace) {a b : ℕ} {v : ℤ} (h : SlebAt m a v b) : b ≤ 2 ^ 63 := by
  obtain ⟨gs, hg, hm, -, rfl⟩ := h
  exact UlebAt.end_le hu ⟨gs, hg, hm, rfl, rfl⟩

theorem readByte_of {a : ℕ} {b : UInt8} (ha : a + 1 < 2 ^ 64) (hb : m a = some b) :
    readByte m.read a = some (b.toNat, a + 1) := by
  have hread : m.read a 1 = some [b] :=
    ByteMap.Holds.read (ByteMap.holds_cons.mpr ⟨hb, ByteMap.holds_nil⟩) rfl
  rw [readByte, hread]
  simp only [Option.bind_eq_bind, Option.bind_some, fromLe_cons, fromLe_nil,
    satAdd_of_lt ha, Nat.mul_zero, Nat.add_zero]

/-- One more group above the groups so far. -/
theorem or_shift {v shift : ℕ} (hv : v < 2 ^ shift) (g : ℕ) :
    v ||| g <<< shift = v + g * 2 ^ shift := by
  rw [Nat.or_comm, ← Nat.shiftLeft_add_eq_or_of_lt hv, Nat.shiftLeft_eq, Nat.add_comm]

/-- The bits of the last byte of a number, and of one that is not the last. -/
theorem leb_bits : ∀ g < 128, (g &&& 0x7f = g ∧ g &&& 0x80 = 0) ∧
    ((g + 128) &&& 0x7f = g ∧ (g + 128) &&& 0x80 ≠ 0) ∧ (g &&& 0x40 ≠ 0 ↔ 64 ≤ g) := by
  decide

/-- The number read so far, with the groups to come. -/
theorem leb_step (v g shift : ℕ) (gs : List ℕ) :
    v + g * 2 ^ shift + 2 ^ (shift + 7) * ulebValue gs = v + 2 ^ shift * ulebValue (g :: gs) := by
  rw [ulebValue_cons, pow_add]
  ring

theorem ulebLoop_at {gs : List ℕ} : ∀ {rounds shift v a : ℕ},
    Groups rounds gs → m.Holds a (lebBytes gs) → a + gs.length < 2 ^ 64 → v < 2 ^ shift →
      ulebLoop m.read rounds shift v a = some (v + 2 ^ shift * ulebValue gs, a + gs.length) := by
  induction gs with
  | nil => exact fun hg => absurd rfl hg.ne_nil
  | cons g gs ih =>
    intro rounds shift v a hg hm hfit hv
    simp only [List.length_cons] at hfit
    have hlt := hg.lt g (.head _)
    obtain ⟨⟨hlow, hend⟩, ⟨hlow', hmore⟩, -⟩ := leb_bits g hlt
    cases rounds with
    | zero => exact absurd hg.length_le (by simp)
    | succ rounds =>
      cases gs with
      | nil =>
        have hb : (UInt8.ofNat g).toNat = g := by
          simp only [UInt8.toNat_ofNat']
          omega
        rw [ulebLoop, readByte_of (by omega) (ByteMap.holds_cons.mp hm).1]
        simp only [hb, Option.bind_eq_bind, Option.bind_some, hlow, hend, if_true, or_shift hv]
        simp [ulebValue, Nat.mul_comm]
      | cons h gs =>
        have hb : (UInt8.ofNat (g + 128)).toNat = g + 128 := by
          simp only [UInt8.toNat_ofNat']
          omega
        obtain ⟨hm0, hm⟩ := ByteMap.holds_cons.mp hm
        have hv' : v + g * 2 ^ shift < 2 ^ (shift + 7) := by
          rw [pow_add]
          nlinarith [Nat.two_pow_pos shift]
        rw [ulebLoop, readByte_of (by omega) hm0]
        simp only [hb, Option.bind_eq_bind, Option.bind_some, hlow', hmore, if_false, or_shift hv]
        rw [ih hg.tail hm (by omega) hv', leb_step]
        simp only [List.length_cons, Nat.add_assoc, Nat.add_comm 1]

theorem readUleb128_of {a v b : ℕ} (h : UlebAt m a v b) (hb : b < 2 ^ 64) :
    readUleb128 m.read a = some (v, b) := by
  obtain ⟨gs, hg, hm, rfl, rfl⟩ := h
  rw [readUleb128, ulebLoop_at hg hm hb (by decide)]
  simp

theorem readUleb128_at (hu : m.UserSpace) {a v b : ℕ} (h : UlebAt m a v b) :
    readUleb128 m.read a = some (v, b) :=
  readUleb128_of h ((h.end_le hu).trans_lt (by decide))

theorem slebLoop_at {gs : List ℕ} : ∀ {rounds shift v a : ℕ},
    Groups rounds gs → m.Holds a (lebBytes gs) → a + gs.length < 2 ^ 64 → v < 2 ^ shift →
      slebLoop m.read rounds shift v a = some (v + 2 ^ shift * slebValue gs, a + gs.length) := by
  induction gs with
  | nil => exact fun hg => absurd rfl hg.ne_nil
  | cons g gs ih =>
    intro rounds shift v a hg hm hfit hv
    simp only [List.length_cons] at hfit
    have hlt := hg.lt g (.head _)
    obtain ⟨⟨hlow, hend⟩, ⟨hlow', hmore⟩, hsign⟩ := leb_bits g hlt
    cases rounds with
    | zero => exact absurd hg.length_le (by simp)
    | succ rounds =>
      cases gs with
      | nil =>
        have hb : (UInt8.ofNat g).toNat = g := by
          simp only [UInt8.toNat_ofNat']
          omega
        rw [slebLoop, readByte_of (by omega) (ByteMap.holds_cons.mp hm).1]
        simp only [hb, Option.bind_eq_bind, Option.bind_some, hlow, hend, if_true, or_shift hv,
          hsign, slebValue, List.getLastD_cons, List.getLastD_nil, ulebValue_cons]
        congr 2
        split
        · simp [ulebValue]
          ring
        · simp [ulebValue]
          ring
      | cons h gs =>
        have hb : (UInt8.ofNat (g + 128)).toNat = g + 128 := by
          simp only [UInt8.toNat_ofNat']
          omega
        obtain ⟨hm0, hm⟩ := ByteMap.holds_cons.mp hm
        have hv' : v + g * 2 ^ shift < 2 ^ (shift + 7) := by
          rw [pow_add]
          nlinarith [Nat.two_pow_pos shift]
        have hval : ((v + g * 2 ^ shift : ℕ) : ℤ) + 2 ^ (shift + 7) * slebValue (h :: gs) =
            v + 2 ^ shift * slebValue (g :: h :: gs) := by
          rw [slebValue_cons g (List.cons_ne_nil h gs), pow_add]
          push_cast
          ring
        rw [slebLoop, readByte_of (by omega) hm0]
        simp only [hb, Option.bind_eq_bind, Option.bind_some, hlow', hmore, if_false, or_shift hv]
        rw [ih hg.tail hm (by omega) hv', hval]
        simp only [List.length_cons, Nat.add_assoc, Nat.add_comm 1]

theorem readSleb128_of {a : ℕ} {v : ℤ} {b : ℕ} (h : SlebAt m a v b) (hb : b < 2 ^ 64) :
    readSleb128 m.read a = some (v, b) := by
  obtain ⟨gs, hg, hm, rfl, rfl⟩ := h
  rw [readSleb128, slebLoop_at hg hm hb (by decide)]
  simp

theorem readSleb128_at (hu : m.UserSpace) {a : ℕ} {v : ℤ} {b : ℕ} (h : SlebAt m a v b) :
    readSleb128 m.read a = some (v, b) :=
  readSleb128_of h ((h.end_le hu).trans_lt (by decide))

/-! ### Encodings -/

/-- Formats of encoded numbers. -/
inductive DwFormat
  | absptr | uleb128 | udata2 | udata4 | udata8 | sleb128 | sdata2 | sdata4 | sdata8
deriving DecidableEq

namespace DwFormat

/-- The low four bits of an encoding. -/
def code : DwFormat → ℕ
  | absptr => 0x00
  | uleb128 => 0x01
  | udata2 => 0x02
  | udata4 => 0x03
  | udata8 => 0x04
  | sleb128 => 0x09
  | sdata2 => 0x0a
  | sdata4 => 0x0b
  | sdata8 => 0x0c

/-- Bytes of a number of fixed width. -/
def size : DwFormat → ℕ
  | udata2 | sdata2 => 2
  | udata4 | sdata4 => 4
  | absptr | udata8 | sdata8 => 8
  | uleb128 | sleb128 => 0

/-- The width is fixed. -/
def Fixed (f : DwFormat) : Prop := f ≠ uleb128 ∧ f ≠ sleb128

/-- The number has a sign. -/
def signed : DwFormat → Bool
  | sdata2 | sdata4 | sdata8 => true
  | _ => false

/-- The numbers of a format of fixed width. -/
def InRange (f : DwFormat) (z : ℤ) : Prop :=
  if f.signed then -2 ^ (8 * f.size - 1) ≤ z ∧ z < 2 ^ (8 * f.size - 1)
  else 0 ≤ z ∧ z < 2 ^ (8 * f.size)

end DwFormat

/-- What an encoded number is relative to. -/
inductive DwApp
  | absolute | pcrel | textrel | datarel | funcrel | aligned
deriving DecidableEq

/-- Bits four to six of an encoding. -/
def DwApp.code : DwApp → ℕ
  | absolute => 0x00
  | pcrel => 0x10
  | textrel => 0x20
  | datarel => 0x30
  | funcrel => 0x40
  | aligned => 0x50

/-- An encoding. -/
structure DwEncoding where
  /-- Format. -/
  format : DwFormat
  /-- Application. -/
  app : DwApp
  /-- The number is the address of the value. -/
  indirect : Bool
deriving DecidableEq

namespace DwEncoding

/-- The byte of an encoding. -/
def byte (e : DwEncoding) : ℕ :=
  e.format.code + e.app.code + if e.indirect then dw_eh_pe.INDIRECT else 0

/-- The base of numbers stored at `a`. -/
def base (e : DwEncoding) (bases : LsdaBases) (a : ℕ) : ℕ :=
  match e.app with
  | .absolute | .aligned => 0
  | .pcrel => a
  | .textrel | .datarel => bases.imageBase
  | .funcrel => bases.funcStart

end DwEncoding

/-- A number of the given format stands at `a` and ends before `b`. -/
def RawAt (m : ByteMap) (f : DwFormat) (a : ℕ) (z : ℤ) (b : ℕ) : Prop :=
  match f with
  | .uleb128 => ∃ n : ℕ, z = n ∧ UlebAt m a n b
  | .sleb128 => SlebAt m a z b
  | f => f.InRange z ∧ m.Holds a (toLe f.size (asU64 z)) ∧ b = a + f.size

/-- The number `z` stored at `a` stands for the address `p`; zero stands for null. -/
def Resolves (m : ByteMap) (bases : LsdaBases) (e : DwEncoding) (a : ℕ) (z : ℤ) (p : ℕ) : Prop :=
  if z = 0 then p = 0
  else
    let addr := asU64 (e.base bases a + z)
    if e.indirect ∧ addr ≠ 0 then p < 2 ^ 64 ∧ m.Holds addr (toLe 8 p) else p = addr

/-- The address `p` is stored at `a`, before `b`. A negative number of eight bytes is left out. -/
def PointerAt (m : ByteMap) (bases : LsdaBases) (e : DwEncoding) (a p b : ℕ) : Prop :=
  ∃ z, RawAt m e.format a z b ∧ (e.format = .sdata8 → 0 ≤ z) ∧ Resolves m bases e a z p

/-! ### Reading encoded values -/

theorem asU64_of_nonneg {z : ℤ} (h0 : 0 ≤ z) (h : z < 2 ^ 64) : asU64 z = z.toNat := by
  unfold asU64
  rw [Int.emod_eq_of_lt h0 h]

theorem asU64_lt (z : ℤ) : asU64 z < 2 ^ 64 := by
  unfold asU64
  omega

theorem asU64_add (a : ℕ) (z : ℤ) : asU64 (a + z) = (a + asU64 z) % 2 ^ 64 := by
  unfold asU64
  omega

/-- The readers of encoded numbers return this but for one format. -/
theorem dwFormatSize_code (f : DwFormat) (hf : f.Fixed) :
    dwFormatSize f.code = some f.size ∧ isSignedFormat f.code = f.signed ∧
      f.code ≠ dw_eh_pe.ULEB128 ∧ f.code ≠ dw_eh_pe.SLEB128 := by
  obtain ⟨h1, h2⟩ := hf
  cases f <;> first | exact absurd rfl h1 | exact absurd rfl h2 | decide

/-- The parts of the byte of an encoding. -/
theorem DwEncoding.byte_parts (e : DwEncoding) :
    e.byte &&& 0x0f = e.format.code ∧ e.byte &&& 0x70 = e.app.code ∧
      (e.byte &&& dw_eh_pe.INDIRECT ≠ 0 ↔ e.indirect = true) ∧ e.byte ≠ dw_eh_pe.OMIT ∧
      e.byte < 256 := by
  obtain ⟨f, a, i⟩ := e
  cases f <;> cases a <;> cases i <;> decide

theorem DwFormat.code_parts (f : DwFormat) :
    f.code &&& 0x0f = f.code ∧ f.code ≠ dw_eh_pe.OMIT := by
  cases f <;> decide

/-- The bit below a bound. -/
theorem and_top_bit {v k : ℕ} (hv : v < 2 ^ (k + 1)) : v &&& 2 ^ k ≠ 0 ↔ 2 ^ k ≤ v := by
  have hp := Nat.two_pow_pos k
  rw [Nat.and_comm, Nat.two_pow_and]
  rcases Nat.lt_or_ge v (2 ^ k) with h | h
  · rw [Nat.testBit_lt_two_pow h]
    simp [h]
  · rw [Nat.testBit_of_two_pow_le_and_two_pow_add_one_gt h hv]
    simp [h]

/-- **A number is extended by its sign**, unless it has eight bytes and is negative. -/
theorem signExtend_eq {s : ℕ} {z : ℤ} (hs : s = 2 ∨ s = 4 ∨ s = 8 ∧ 0 ≤ z)
    (h1 : -2 ^ (8 * s - 1) ≤ z) (h2 : z < 2 ^ (8 * s - 1)) :
    signExtend s (asU64 z % 256 ^ s) = asU64 z := by
  rw [signExtend]
  rcases hs with rfl | rfl | ⟨rfl, h0⟩
  · have htop := and_top_bit (v := asU64 z % 256 ^ 2) (k := 15) (by omega)
    show (if asU64 z % 256 ^ 2 &&& 2 ^ 15 ≠ 0 then _ else _) = _
    rw [if_congr htop rfl rfl]
    unfold asU64
    split
    · rw [show 2 ^ 64 - 2 ^ (2 * 8 % 64) = (2 ^ 48 - 1) <<< 16 from rfl, or_shift (by omega)]
      omega
    · omega
  · have htop := and_top_bit (v := asU64 z % 256 ^ 4) (k := 31) (by omega)
    show (if asU64 z % 256 ^ 4 &&& 2 ^ 31 ≠ 0 then _ else _) = _
    rw [if_congr htop rfl rfl]
    unfold asU64
    split
    · rw [show 2 ^ 64 - 2 ^ (4 * 8 % 64) = (2 ^ 32 - 1) <<< 32 from rfl, or_shift (by omega)]
      omega
    · omega
  · have hz := asU64_of_nonneg h0 (by omega)
    have htop := and_top_bit (v := asU64 z % 256 ^ 8) (k := 63) (by omega)
    show (if asU64 z % 256 ^ 8 &&& 2 ^ 63 ≠ 0 then _ else _) = _
    rw [if_congr htop rfl rfl, hz, if_neg (by omega)]
    omega

theorem size_cases {f : DwFormat} (hf : f.Fixed) : f.size = 2 ∨ f.size = 4 ∨ f.size = 8 := by
  obtain ⟨h1, h2⟩ := hf
  cases f <;> simp_all [DwFormat.size]

theorem rawAt_fixed {f : DwFormat} (hf : f.Fixed) {a b : ℕ} {z : ℤ} :
    RawAt m f a z b ↔ f.InRange z ∧ m.Holds a (toLe f.size (asU64 z)) ∧ b = a + f.size := by
  obtain ⟨h1, h2⟩ := hf
  cases f <;> first | exact absurd rfl h1 | exact absurd rfl h2 | exact Iff.rfl

/-- What the bytes of a number of fixed width are read as. -/
theorem extend_eq {f : DwFormat} (hf : f.Fixed) {z : ℤ} (hz : f.InRange z)
    (hneg : f = .sdata8 → 0 ≤ z) :
    (if f.signed = true then signExtend f.size (asU64 z % 256 ^ f.size)
      else asU64 z % 256 ^ f.size) = asU64 z := by
  rw [DwFormat.InRange] at hz
  split
  · rename_i hs
    rw [if_pos hs] at hz
    refine signExtend_eq ?_ hz.1 hz.2
    cases f <;> simp_all [DwFormat.size, DwFormat.signed]
  · rename_i hs
    rw [if_neg hs] at hz
    rcases size_cases hf with h | h | h <;> rw [h] at hz ⊢ <;>
      rw [asU64_of_nonneg hz.1 (by omega)] <;> omega

theorem RawAt.end_le (hu : m.UserSpace) {f : DwFormat} {a b : ℕ} {z : ℤ} (h : RawAt m f a z b) :
    b ≤ 2 ^ 63 := by
  by_cases h1 : f = .uleb128
  · subst h1
    obtain ⟨n, rfl, hn⟩ := h
    exact hn.end_le hu
  by_cases h2 : f = .sleb128
  · subst h2
    exact SlebAt.end_le hu h
  obtain ⟨-, hm, rfl⟩ := (rawAt_fixed ⟨h1, h2⟩).mp h
  have hpos := size_cases ⟨h1, h2⟩
  simpa using hu.end_le hm (List.ne_nil_of_length_pos (by rw [length_toLe]; omega))

/-- **An encoded number is read as it stands**, wherever it ends before the last address. -/
theorem readEncodedValue_of {byte a b : ℕ} {f : DwFormat} {z : ℤ}
    (hb : byte &&& 0x0f = f.code) (ho : byte ≠ dw_eh_pe.OMIT) (h : RawAt m f a z b)
    (hend : b < 2 ^ 64) (hneg : f = .sdata8 → 0 ≤ z) :
    readEncodedValue m.read a byte = some (asU64 z, a, b) := by
  rw [readEncodedValue, if_neg ho]
  simp only [hb]
  by_cases h1 : f = .uleb128
  · subst h1
    obtain ⟨n, rfl, hn⟩ := h
    have hlt := hn.lt
    rw [if_pos (show DwFormat.uleb128.code = dw_eh_pe.ULEB128 from rfl), readUleb128_of hn hend,
      asU64_of_nonneg (by omega) (by omega)]
    rfl
  by_cases h2 : f = .sleb128
  · subst h2
    rw [if_neg (show DwFormat.sleb128.code ≠ dw_eh_pe.ULEB128 by decide),
      if_pos (show DwFormat.sleb128.code = dw_eh_pe.SLEB128 from rfl), readSleb128_of h hend]
    rfl
  obtain ⟨hsize, hsigned, hu', hs'⟩ := dwFormatSize_code f ⟨h1, h2⟩
  obtain ⟨hz, hm, rfl⟩ := (rawAt_fixed ⟨h1, h2⟩).mp h
  rw [if_neg hu', if_neg hs', hsize]
  simp only [Option.bind_eq_bind, Option.bind_some, hm.read (length_toLe _ _), fromLe_toLe,
    hsigned, extend_eq ⟨h1, h2⟩ hz hneg, satAdd_of_lt hend]

theorem readEncodedValue_at (hu : m.UserSpace) {byte a b : ℕ} {f : DwFormat} {z : ℤ}
    (hb : byte &&& 0x0f = f.code) (ho : byte ≠ dw_eh_pe.OMIT) (h : RawAt m f a z b)
    (hneg : f = .sdata8 → 0 ≤ z) : readEncodedValue m.read a byte = some (asU64 z, a, b) :=
  readEncodedValue_of hb ho h ((h.end_le hu).trans_lt (by decide)) hneg

theorem RawAt.asU64_eq_zero {f : DwFormat} {a b : ℕ} {z : ℤ} (h : RawAt m f a z b)
    (h0 : asU64 z = 0) : z = 0 := by
  unfold asU64 at h0
  by_cases h1 : f = .uleb128
  · subst h1
    obtain ⟨n, rfl, hn⟩ := h
    have := hn.lt
    omega
  by_cases h2 : f = .sleb128
  · subst h2
    have := SlebAt.bounds h
    omega
  obtain ⟨hz, -⟩ := (rawAt_fixed ⟨h1, h2⟩).mp h
  rw [DwFormat.InRange] at hz
  rcases size_cases ⟨h1, h2⟩ with hs | hs | hs <;> rw [hs] at hz <;> split at hz <;> omega

/-- **A stored number is resolved to what it stands for.** -/
theorem applyEncoding_at {bases : LsdaBases} {e : DwEncoding} {a p : ℕ} {z : ℤ}
    (hz : asU64 z = 0 → z = 0) (h : Resolves m bases e a z p) :
    applyEncoding m.read bases e.byte (asU64 z) a = some p := by
  obtain ⟨-, happ, hind, homit, -⟩ := e.byte_parts
  rw [applyEncoding, if_neg homit]
  rw [Resolves] at h
  by_cases h0 : z = 0
  · rw [if_pos h0] at h
    rw [h0, h, if_pos (show asU64 0 = 0 from rfl)]
  rw [if_neg h0] at h
  rw [if_neg (mt hz h0)]
  have haddr : (if e.app.code = dw_eh_pe.PCREL then (a + asU64 z) % 2 ^ 64
      else if e.app.code = dw_eh_pe.TEXTREL then (bases.imageBase + asU64 z) % 2 ^ 64
      else if e.app.code = dw_eh_pe.DATAREL then (bases.imageBase + asU64 z) % 2 ^ 64
      else if e.app.code = dw_eh_pe.FUNCREL then (bases.funcStart + asU64 z) % 2 ^ 64
      else asU64 z) = asU64 (e.base bases a + z) := by
    rw [asU64_add, DwEncoding.base]
    cases e.app
    case absolute | aligned =>
      show asU64 z = (0 + asU64 z) % 2 ^ 64
      rw [Nat.zero_add, Nat.mod_eq_of_lt (asU64_lt z)]
    all_goals rfl
  simp only [happ, haddr, hind]
  by_cases hi : e.indirect = true ∧ asU64 (e.base bases a + z) ≠ 0
  · rw [if_pos hi] at h ⊢
    rw [h.2.read (length_toLe _ _)]
    exact congrArg some (fromLe_toLe_of_lt h.1)
  · rw [if_neg hi] at h ⊢
    rw [h]

/-- **An encoded address is read as the source reads it**, with the format alone or with the whole
encoding. -/
theorem PointerAt.read {bases : LsdaBases} {e : DwEncoding} {a p b byte : ℕ} (hu : m.UserSpace)
    (h : PointerAt m bases e a p b) (hb : byte &&& 0x0f = e.format.code)
    (ho : byte ≠ dw_eh_pe.OMIT) :
    ∃ raw, readEncodedValue m.read a byte = some (raw, a, b) ∧
      applyEncoding m.read bases e.byte raw a = some p := by
  obtain ⟨z, hraw, hneg, hres⟩ := h
  exact ⟨asU64 z, readEncodedValue_at hu hb ho hraw hneg,
    applyEncoding_at hraw.asU64_eq_zero hres⟩

/-! ### The tables -/

/-- A record of the call-site table with the filters of its chain of actions. -/
structure CallSite extends RawSite where
  /-- The filters, in the order of the chain. -/
  chain : List ℤ

/-- The contents of an LSDA. -/
structure Lsda where
  /-- Landing pad base, if it is given; null stands for the start of the function. -/
  lpStart : Option (DwEncoding × ℕ)
  /-- Types of the positive filters, null for any type, if there is a type table. -/
  types : Option (DwEncoding × (ℕ → ℕ))
  /-- Encoding of the call-site table. -/
  csEnc : DwEncoding
  /-- The call-site table. -/
  sites : List CallSite

/-- A record of the call-site table at `a`. -/
def SiteAt (m : ByteMap) (f : DwFormat) (a : ℕ) (s : RawSite) (b : ℕ) : Prop :=
  ∃ a₁ a₂ a₃, RawAt m f a s.start a₁ ∧ RawAt m f a₁ s.len a₂ ∧ RawAt m f a₂ s.pad a₃ ∧
    UlebAt m a₃ s.action b

/-- Consecutive records. -/
def SitesAt (m : ByteMap) (f : DwFormat) : (a : ℕ) → List CallSite → (b : ℕ) → Prop
  | a, [], b => a = b
  | a, s :: ss, b => ∃ a', SiteAt m f a s.toRawSite a' ∧ SitesAt m f a' ss b

/-- A chain of actions whose first record stands at `a`, in the action table at `table`. The link
to the next record counts from the link itself, and is zero in the last. -/
def ChainAt (m : ByteMap) (table : ℕ) : (a : ℕ) → List ℤ → Prop
  | _, [] => False
  | a, [filter] => table ≤ a ∧ ∃ b c, SlebAt m a filter b ∧ SlebAt m b 0 c
  | a, filter :: g :: fs => table ≤ a ∧ ∃ b next c, ∃ a' : ℕ, SlebAt m a filter b ∧
      SlebAt m b next c ∧ next ≠ 0 ∧ (a' : ℤ) = b + next ∧ ChainAt m table a' (g :: fs)

namespace Lsda

/-- What the landing pads are relative to. -/
def lpBase (l : Lsda) (bases : LsdaBases) : ℕ :=
  match l.lpStart with
  | none => bases.funcStart
  | some (_, p) => if p = 0 then bases.funcStart else p

/-- What the addresses of the call-site table are relative to: absolute pointers are not relative
to anything. -/
def csBase (l : Lsda) (bases : LsdaBases) : ℕ :=
  if l.csEnc.format = .absptr then 0 else l.lpBase bases

/-- The encoding of a field that may be omitted. -/
def encByte : Option DwEncoding → ℕ
  | none => dw_eh_pe.OMIT
  | some e => e.byte

/-- The landing pad base at `a`. -/
def LpStartAt (l : Lsda) (m : ByteMap) (bases : LsdaBases) (a b : ℕ) : Prop :=
  m a = some (UInt8.ofNat (encByte (l.lpStart.map Prod.fst))) ∧
    match l.lpStart with
    | none => b = a + 1
    | some (e, p) => PointerAt m bases e (a + 1) p b

/-- The encoding of the type table at `a`; the table ends at `tb`. -/
def TypesAt (l : Lsda) (m : ByteMap) (a tb b : ℕ) : Prop :=
  m a = some (UInt8.ofNat (encByte (l.types.map Prod.fst))) ∧
    match l.types with
    | none => tb = 0 ∧ b = a + 1
    | some _ => ∃ off, UlebAt m (a + 1) off b ∧ tb = b + off

/-- Every positive filter of a chain has its entry in the type table. -/
def FilterAt (l : Lsda) (m : ByteMap) (bases : LsdaBases) (tb : ℕ) (filter : ℤ) : Prop :=
  0 < filter → ∃ e types, l.types = some (e, types) ∧ e.format.Fixed ∧
    filter.toNat * e.format.size ≤ tb ∧
    ∃ b, PointerAt m bases e (tb - filter.toNat * e.format.size) (types filter.toNat) b

/-- The actions of a record. -/
def ActionsAt (l : Lsda) (m : ByteMap) (bases : LsdaBases) (tb table : ℕ) (s : CallSite) : Prop :=
  (if s.action = 0 then s.chain = [] else ChainAt m table (table + (s.action - 1)) s.chain) ∧
    ∀ filter ∈ s.chain, l.FilterAt m bases tb filter

/-- **An LSDA stands at an address.** The ranges and the landing pads lie in the address space. -/
structure At (l : Lsda) (m : ByteMap) (bases : LsdaBases) (va : ℕ) : Prop where
  /-- Header, call-site table and actions. -/
  tables : ∃ a tb b len cs, l.LpStartAt m bases va a ∧ l.TypesAt m a tb b ∧
    m b = some (UInt8.ofNat l.csEnc.byte) ∧ l.csEnc.format ≠ .sleb128 ∧ UlebAt m (b + 1) len cs ∧
    SitesAt m l.csEnc.format cs l.sites (cs + len) ∧
    ∀ s ∈ l.sites, l.ActionsAt m bases tb (cs + len) s
  /-- Addresses do not wrap around. -/
  bound : ∀ s ∈ l.sites, l.csBase bases + s.start + s.len < 2 ^ 64 ∧
    l.csBase bases + s.pad < 2 ^ 64
  /-- The records are sorted, and no address is in two of them. -/
  sorted : l.sites.Pairwise fun s t => s.start + s.len ≤ t.start

end Lsda

end Wie
