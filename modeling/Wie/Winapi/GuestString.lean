import Wie.Winapi.Encoding
import Wie.Winapi.Engine

/-!
# Strings in guest memory

A string is read unit by unit up to a zero or a limit, and written with a zero at the end, cut to
what the buffer holds.

## Main definitions

* `readUnits` — the loop of the readers
* `readAnsiLossy`, `readUtf16Lossy`, `writeAnsiCString`, `writeUtf16CString` — of the source
* `UnitsAt` — units one after the other in memory

## Main results

* `readUnits_of_unitsAt` — what the loop reads
* `unitsAt_put` — units that were written are there
* `fromUtf16Lossy_encodeUtf16` — the units of a text are decoded to it
-/

namespace Wie

variable {m : Flat} {address size : ℕ}

/-! ### Reading -/

/-- The loop of `read_ansi_bytes` and `read_utf16_lossy`: units of `size` bytes from the unit
`index` on, up to a zero, `left` at most. -/
def readUnits (m : Flat) (address size : ℕ) : ℕ → ℕ → Option (List ℕ)
  | _, 0 => some []
  | index, left + 1 =>
    match (checkedAdd address (index * size)).bind fun a => m.loadLe a size with
    | none => none
    | some value =>
      if value = 0 then some []
      else (readUnits m address size (index + 1) left).map (value :: ·)

/-- `decode_acp`. -/
def decodeAcp (bytes : List UInt8) : List Char := textOf cp1252ByteToU16 bytes

/-- `read_ansi_lossy`. -/
def readAnsiLossy (m : Flat) (address maxBytes : ℕ) : Option (List Char) :=
  if address = 0 then some []
  else (readUnits m address 1 0 maxBytes).map fun us => decodeAcp (us.map UInt8.ofNat)

/-- What stands for a unit that is not part of a character. -/
def REPLACEMENT : Char := Char.ofNat 0xfffd

/-- `String::from_utf16_lossy`. -/
def fromUtf16Lossy : List UInt16 → List Char
  | [] => []
  | u :: us =>
    if u.toNat < 0xd800 ∨ 0xdfff < u.toNat then Char.ofNat u.toNat :: fromUtf16Lossy us
    else if 0xdc00 ≤ u.toNat then REPLACEMENT :: fromUtf16Lossy us
    else
      match us with
      | [] => [REPLACEMENT]
      | v :: vs =>
        if v.toNat < 0xdc00 ∨ 0xdfff < v.toNat then REPLACEMENT :: fromUtf16Lossy (v :: vs)
        else Char.ofNat (0x10000 + u.toNat % 0x400 * 0x400 + v.toNat % 0x400) ::
          fromUtf16Lossy vs

/-- `read_utf16_lossy`. -/
def readUtf16Lossy (m : Flat) (address maxUnits : ℕ) : Option (List Char) :=
  if address = 0 then some []
  else (readUnits m address 2 0 maxUnits).map fun us => fromUtf16Lossy (us.map UInt16.ofNat)

/-! ### Writing -/

/-- `write_ansi_c_string`: how many bytes were copied, and the memory. -/
def writeAnsiCString (m : Flat) (address maxCharacters : ℕ) (text : List Char) :
    Option (ℕ × Flat) :=
  if address = 0 ∨ maxCharacters = 0 then some (0, m)
  else
    let output := (asBytes text).take (maxCharacters - 1)
    (m.store address (output ++ [0])).map fun m' => (output.length, m')

/-- `write_utf16_c_string`. -/
def writeUtf16CString (m : Flat) (address maxCharacters : ℕ) (text : List Char) :
    Option (ℕ × Flat) :=
  if address = 0 ∨ maxCharacters = 0 then some (0, m)
  else
    let units := (encodeUtf16 text).take (maxCharacters - 1)
    (m.store address (unitBytes (units ++ [0]))).map fun m' => (units.length, m')

/-! ### Units in memory -/

/-- The units stand one after the other and can be read. -/
def UnitsAt (m : Flat) (address size : ℕ) (us : List ℕ) : Prop :=
  ∀ i (h : i < us.length), m.loadLe (address + i * size) size = some us[i]

theorem UnitsAt.tail {u : ℕ} {us : List ℕ} (h : UnitsAt m address size (u :: us)) :
    UnitsAt m (address + size) size us := by
  intro i hi
  have hload := h (i + 1) (by rw [List.length_cons]; omega)
  rwa [Nat.succ_mul, Nat.add_comm (i * size), ← Nat.add_assoc] at hload

/-- The loop, started further on. -/
theorem readUnits_shift (m : Flat) (address size : ℕ) (left index : ℕ) :
    readUnits m address size (index + 1) left = readUnits m (address + size) size index left := by
  induction left generalizing index with
  | zero => rfl
  | succ left ih =>
    have hadd : checkedAdd address ((index + 1) * size) =
        checkedAdd (address + size) (index * size) := by
      unfold checkedAdd
      rw [Nat.succ_mul, Nat.add_comm (index * size), ← Nat.add_assoc]
    rw [readUnits, readUnits, hadd, ih]

/-- **What the loop reads**: the units up to the zero, or as many as it may. -/
theorem readUnits_of_unitsAt {us : List ℕ} {left : ℕ} (hne : ∀ u ∈ us, u ≠ 0)
    (hat : UnitsAt m address size (us ++ [0])) (hend : address + us.length * size < 2 ^ 64) :
    readUnits m address size 0 left = some (us.take left) := by
  induction us generalizing address left with
  | nil =>
    cases left with
    | zero => rfl
    | succ left =>
      have hload := hat 0 (by simp)
      have hadd : checkedAdd address (0 * size) = some (address + 0 * size) :=
        checkedAdd_eq_some.mpr ⟨rfl, by simpa using hend⟩
      rw [readUnits, hadd, Option.bind_some, hload]
      rfl
  | cons u us ih =>
    cases left with
    | zero => rfl
    | succ left =>
      rw [List.length_cons, Nat.succ_mul] at hend
      have hload := hat 0 (by simp)
      have hadd : checkedAdd address (0 * size) = some (address + 0 * size) :=
        checkedAdd_eq_some.mpr ⟨rfl, by omega⟩
      have hrest : readUnits m (address + size) size 0 left = some (us.take left) :=
        ih (fun v hv => hne v (.tail _ hv)) (UnitsAt.tail hat) (by omega)
      rw [readUnits, hadd, Option.bind_some, hload]
      show (if u = 0 then _ else _) = _
      rw [if_neg (hne u (.head _)), readUnits_shift, hrest]
      rfl

/-- The bytes of units. -/
def bytesOfUnits (size : ℕ) (us : List ℕ) : List UInt8 := us.flatMap (toLe size)

theorem length_bytesOfUnits (size : ℕ) (us : List ℕ) :
    (bytesOfUnits size us).length = us.length * size := by
  simp [bytesOfUnits, List.length_flatMap]

/-- **Units that were written are there.** -/
theorem unitsAt_put {us : List ℕ} (hlt : ∀ u ∈ us, u < 256 ^ size)
    (hread : m.Rd address (us.length * size)) :
    UnitsAt (m.put address (bytesOfUnits size us)) address size us := by
  induction us generalizing m address with
  | nil => exact fun i hi => absurd hi (by simp)
  | cons u us ih =>
    have hsplit : m.put address (bytesOfUnits size (u :: us)) =
        (m.put address (toLe size u)).put (address + size) (bytesOfUnits size us) := by
      have happ := Flat.put_append m address (toLe size u) (bytesOfUnits size us)
      rw [length_toLe] at happ
      exact happ.symm
    rw [List.length_cons, Nat.succ_mul, Nat.add_comm, Flat.rd_append] at hread
    have hrest := ih (m := m.put address (toLe size u)) (fun v hv => hlt v (.tail _ hv)) hread.2
    intro i hi
    rw [hsplit]
    cases i with
    | zero =>
      have hget : (m.set address size u).get address size = u :=
        Flat.get_set_of_lt (hlt u (.head _))
      have hrd : ((m.put address (toLe size u)).put (address + size)
          (bytesOfUnits size us)).Rd address size := hread.1
      rw [Nat.zero_mul, Nat.add_zero, Flat.loadLe_eq hrd]
      refine congrArg some (.trans (Flat.get_congr fun x h1 h2 => ?_) hget)
      exact Flat.byte_put_of_notMem (.inl h2)
    | succ i =>
      have hload := hrest i (by simpa using hi)
      rw [Nat.succ_mul, Nat.add_comm (i * size), ← Nat.add_assoc]
      exact hload

theorem unitBytes_eq (us : List UInt16) : unitBytes us = bytesOfUnits 2 (us.map UInt16.toNat) := by
  rw [unitBytes, bytesOfUnits, List.flatMap_map]

theorem bytesOfUnits_one (bs : List UInt8) : bytesOfUnits 1 (bs.map UInt8.toNat) = bs := by
  induction bs with
  | nil => rfl
  | cons b bs ih =>
    have hhead : toLe 1 b.toNat = [b] := by simp [toLe]
    rw [bytesOfUnits] at ih
    rw [List.map_cons, bytesOfUnits, List.flatMap_cons, hhead, ih]
    rfl

/-! ### Texts -/

theorem fromUtf16Lossy_single {u : UInt16} (hu : u.toNat < 0xd800 ∨ 0xdfff < u.toNat)
    (us : List UInt16) : fromUtf16Lossy (u :: us) = Char.ofNat u.toNat :: fromUtf16Lossy us :=
  (fromUtf16Lossy.eq_def _).trans (if_pos hu)

theorem fromUtf16Lossy_pair {u v : UInt16} (hu : 0xd800 ≤ u.toNat ∧ u.toNat < 0xdc00)
    (hv : 0xdc00 ≤ v.toNat ∧ v.toNat ≤ 0xdfff) (us : List UInt16) :
    fromUtf16Lossy (u :: v :: us) =
      Char.ofNat (0x10000 + u.toNat % 0x400 * 0x400 + v.toNat % 0x400) :: fromUtf16Lossy us := by
  refine (fromUtf16Lossy.eq_def _).trans ((if_neg (by omega)).trans ((if_neg (by omega)).trans ?_))
  exact if_neg (by omega)

/-- Where units are those of a text, the two decoders agree. -/
theorem fromUtf16Lossy_of_fromUtf16 {us : List UInt16} {s : List Char}
    (h : fromUtf16 us = some s) : fromUtf16Lossy us = s := by
  induction us using fromUtf16Lossy.induct generalizing s with
  | case1 => exact Option.some.inj h
  | case2 u us hu ih =>
    rw [fromUtf16_single hu] at h
    obtain ⟨t, ht, rfl⟩ := Option.map_eq_some_iff.mp h
    rw [fromUtf16Lossy_single hu, ih ht]
  | case3 u us hu hlow ih =>
    have hnone : fromUtf16 (u :: us) = none :=
      (fromUtf16.eq_def _).trans ((if_neg hu).trans (if_pos hlow))
    cases hnone.symm.trans h
  | case4 u hu hlow =>
    have hnone : fromUtf16 [u] = none :=
      (fromUtf16.eq_def _).trans ((if_neg hu).trans (if_neg hlow))
    cases hnone.symm.trans h
  | case5 u hu hlow v vs hv ih =>
    have hnone : fromUtf16 (u :: v :: vs) = none :=
      (fromUtf16.eq_def _).trans ((if_neg hu).trans ((if_neg hlow).trans (if_pos hv)))
    cases hnone.symm.trans h
  | case6 u hu hlow v vs hv ih =>
    rw [fromUtf16_pair (by omega) (by omega)] at h
    obtain ⟨t, ht, rfl⟩ := Option.map_eq_some_iff.mp h
    rw [fromUtf16Lossy_pair (by omega) (by omega), ih ht]

/-- **The units of a text are decoded to it.** -/
theorem fromUtf16Lossy_encodeUtf16 (s : List Char) : fromUtf16Lossy (encodeUtf16 s) = s :=
  fromUtf16Lossy_of_fromUtf16 (fromUtf16_encodeUtf16 s)

end Wie
