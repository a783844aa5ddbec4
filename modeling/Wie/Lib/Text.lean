import Mathlib.Data.List.DropRight
import Mathlib.Tactic.Common

/-!
# Texts and host paths

Texts are lists of characters. Positions in a text are counted in bytes of its UTF-8 encoding, so
that a text can be split at a position only if the position is between two characters.

A path of the host is a list of bytes. A component is put at its end after a separator, if one is
needed, and a component that starts with a separator takes the place of the whole path. The segments
of a path are what is between separators.

## Main definitions

* `asBytes`, `splitAtByte` — the encoding of a text, and splitting at a byte
* `fromUtf8`, `fromUtf8Lossy` — the text of an encoding, and the one that replaces what is wrong
* `trim`, `trimMatches`, `stripPrefix` — texts without something at their ends
* `joinPath`, `pushPath` — a path with one more component
* `segments` — the segments of a path

## Main results

* `segments_joinPath` — a plain component adds itself to the segments
-/

namespace Wie

/-! ### Texts -/

/-- The UTF-8 encoding. -/
def asBytes (s : List Char) : List UInt8 := s.flatMap String.utf8EncodeChar

/-- Split at a byte, which has to be the first one of a character or the end. -/
def splitAtByte : List Char → ℕ → Option (List Char × List Char)
  | s, 0 => some ([], s)
  | [], _ + 1 => none
  | c :: s, n + 1 =>
    if c.utf8Size ≤ n + 1 then
      (splitAtByte s (n + 1 - c.utf8Size)).map fun t => (c :: t.1, t.2)
    else none

/-- `to_ascii_lowercase`: letters of ASCII alone have another case. -/
def toAsciiLowercase (s : List Char) : List Char := s.map Char.toLower

/-- The text that bytes are the encoding of. -/
def fromUtf8 (bytes : List UInt8) : Option (List Char) :=
  bytes.toByteArray.utf8Decode?.map Array.toList

theorem fromUtf8_eq_some_iff {bytes : List UInt8} {s : List Char} :
    fromUtf8 bytes = some s ↔ bytes = asBytes s := by
  constructor
  · intro h
    obtain ⟨chars, hchars, rfl⟩ := Option.map_eq_some_iff.mp h
    have hsome : bytes.toByteArray.utf8Decode?.isSome := by rw [hchars]; rfl
    have hencode := ByteArray.utf8Encode_get_utf8Decode? (h := hsome)
    simp only [hchars, Option.get_some] at hencode
    exact (List.toByteArray_inj.mp hencode).symm
  · rintro rfl
    have hencode : (asBytes s).toByteArray = s.utf8Encode := rfl
    rw [fromUtf8, hencode, List.utf8Decode?_utf8Encode]
    rfl

/-- The least and the greatest value of each byte that comes after a first byte, in the encoding of a
character. No character begins with the other bytes. -/
def followers (b : UInt8) : Option (List (UInt8 × UInt8)) :=
  if b < 0x80 then some []
  else if b < 0xc2 then none
  else if b < 0xe0 then some [(0x80, 0xbf)]
  else if b = 0xe0 then some [(0xa0, 0xbf), (0x80, 0xbf)]
  else if b = 0xed then some [(0x80, 0x9f), (0x80, 0xbf)]
  else if b < 0xf0 then some [(0x80, 0xbf), (0x80, 0xbf)]
  else if b = 0xf0 then some [(0x90, 0xbf), (0x80, 0xbf), (0x80, 0xbf)]
  else if b < 0xf4 then some [(0x80, 0xbf), (0x80, 0xbf), (0x80, 0xbf)]
  else if b = 0xf4 then some [(0x80, 0x8f), (0x80, 0xbf), (0x80, 0xbf)]
  else none

/-- How many bytes at the head are in their ranges. -/
def matched : List (UInt8 × UInt8) → List UInt8 → ℕ
  | (lo, hi) :: rs, b :: bs => if lo ≤ b ∧ b ≤ hi then matched rs bs + 1 else 0
  | _, _ => 0

/-- A character, or the replacement for what could not be continued to one, and the bytes after
that. -/
def lossyChar (b : UInt8) (bs : List UInt8) : List Char × List UInt8 :=
  match followers b with
  | none => (['\uFFFD'], bs)
  | some rs =>
    let k := matched rs bs
    (if k = rs.length then (fromUtf8 (b :: bs.take k)).getD [] else ['\uFFFD'], bs.drop k)

theorem length_lossyChar_le (b : UInt8) (bs : List UInt8) :
    (lossyChar b bs).2.length ≤ bs.length := by
  rw [lossyChar]
  split
  · exact le_rfl
  · exact List.length_drop.trans_le (Nat.sub_le ..)

/-- `from_utf8_lossy`. -/
def fromUtf8Lossy : List UInt8 → List Char
  | [] => []
  | b :: bs => (lossyChar b bs).1 ++ fromUtf8Lossy (lossyChar b bs).2
termination_by bytes => bytes.length
decreasing_by exact Nat.lt_succ_of_le (length_lossyChar_le b bs)

theorem toNat_ofNat_ascii {n : ℕ} (h : n < 0x80) : (Char.ofNat n).val.toNat = n := by
  have hvalid : n.isValidChar := .inl (by omega)
  rw [Char.ofNat, dif_pos hvalid]
  rfl

/-- Bytes below 0x80 are the characters of these numbers. -/
theorem asBytes_ascii {bytes : List UInt8} (h : ∀ b ∈ bytes, b < 0x80) :
    asBytes (bytes.map fun b => Char.ofNat b.toNat) = bytes := by
  induction bytes with
  | nil => rfl
  | cons b bytes ih =>
    have hb : b.toNat < 0x80 := UInt8.lt_iff_toNat_lt.mp (h b (.head _))
    have hval := toNat_ofNat_ascii hb
    have hone : String.utf8EncodeChar (Char.ofNat b.toNat) = [b] := by
      rw [String.utf8EncodeChar]
      simp only [hval]
      rw [if_pos (by omega), UInt8.ofNat_toNat]
    rw [List.map_cons, asBytes, List.flatMap_cons, hone, ← asBytes,
      ih fun b' hb' => h b' (.tail _ hb'), List.singleton_append]

/-- White space of Unicode. -/
def isWhitespace (c : Char) : Bool :=
  let v := c.toNat
  (0x09 ≤ v ∧ v ≤ 0x0d) ∨ v = 0x20 ∨ v = 0x85 ∨ v = 0xa0 ∨ v = 0x1680 ∨
    (0x2000 ≤ v ∧ v ≤ 0x200a) ∨ v = 0x2028 ∨ v = 0x2029 ∨ v = 0x202f ∨ v = 0x205f ∨ v = 0x3000

/-- Without the characters at both ends that `p` holds of. -/
def trimMatches (p : Char → Bool) (s : List Char) : List Char := (s.dropWhile p).rdropWhile p

/-- Without white space at both ends. -/
def trim (s : List Char) : List Char := trimMatches isWhitespace s

/-- What comes after `pre`, if the text starts with it. -/
def stripPrefix (pre s : List Char) : Option (List Char) :=
  if pre.isPrefixOf s then some (s.drop pre.length) else none

/-! ### Host paths -/

/-- The separator. -/
def SLASH : UInt8 := 0x2f

/-- Put `c` at the end of a path, after a separator unless the path is empty or ends with one. -/
def joinPath (p c : List UInt8) : List UInt8 :=
  if p = [] ∨ p.getLast? = some SLASH then p ++ c else p ++ SLASH :: c

/-- `PathBuf::push`: a component that starts with a separator takes the place of the path. -/
def pushPath (p c : List UInt8) : List UInt8 := if c.head? = some SLASH then c else joinPath p c

/-- What is between separators. -/
def segments (p : List UInt8) : List (List UInt8) := (p.splitOn SLASH).filter (· ≠ [])

variable {p c : List UInt8} {ch : Char} {s : List Char}

theorem segments_append_cons (p c : List UInt8) :
    segments (p ++ SLASH :: c) = segments p ++ segments c := by
  rw [segments, List.splitOn_append_cons_self, List.filter_append]
  rfl

theorem segments_of_notMem (hc : c ≠ []) (hs : SLASH ∉ c) : segments c = [c] := by
  rw [segments, List.splitOn_eq_singleton hs]
  simp [hc]

/-- **A plain component adds itself to the segments.** -/
theorem segments_joinPath (p : List UInt8) (hc : c ≠ []) (hs : SLASH ∉ c) :
    segments (joinPath p c) = segments p ++ [c] := by
  rw [← segments_of_notMem hc hs, joinPath]
  split_ifs with h
  · rcases h with rfl | h
    · rfl
    · -- the path already ends with a separator, and nothing comes after that one
      obtain ⟨q, rfl⟩ := List.getLast?_eq_some_iff.mp h
      rw [List.append_assoc, List.singleton_append, segments_append_cons, segments_append_cons]
      exact congrArg (· ++ segments c) (List.append_nil _).symm
  · exact segments_append_cons p c

theorem pushPath_of_notMem (hs : SLASH ∉ c) : pushPath p c = joinPath p c :=
  if_neg fun h => hs (List.mem_of_mem_head? h)

theorem ofNat_eq_slash {n : ℕ} (hn : n < 256) : SLASH = UInt8.ofNat n ↔ n = 0x2f := by
  rw [← UInt8.toNat_inj, UInt8.toNat_ofNat_of_lt' hn]
  exact eq_comm

/-- Only the separator has the byte of the separator. -/
theorem slash_mem_utf8EncodeChar (h : SLASH ∈ String.utf8EncodeChar ch) : ch = '/' := by
  have hv : ch.val.toNat < 0x110000 := by
    rcases ch.valid with hlt | ⟨-, hlt⟩
    · exact Nat.lt_trans hlt (by decide)
    · exact hlt
  have hch : ch.val.toNat = 0x2f := by
    rw [String.utf8EncodeChar] at h
    -- in longer encodings every byte is at least 0x80
    split_ifs at h <;> simp only [List.mem_cons, List.not_mem_nil, or_false] at h
    · exact (ofNat_eq_slash (by omega)).mp h
    · rcases h with h | h <;> have := (ofNat_eq_slash (by omega)).mp h <;> omega
    · rcases h with h | h | h <;> have := (ofNat_eq_slash (by omega)).mp h <;> omega
    · rcases h with h | h | h | h <;> have := (ofNat_eq_slash (by omega)).mp h <;> omega
  exact Char.toNat_inj.mp hch

theorem slash_notMem_asBytes (h : '/' ∉ s) : SLASH ∉ asBytes s := by
  intro hs
  obtain ⟨ch, hch, hb⟩ := List.mem_flatMap.mp hs
  exact h (slash_mem_utf8EncodeChar hb ▸ hch)

theorem asBytes_ne_nil (h : s ≠ []) : asBytes s ≠ [] := by
  obtain ⟨ch, t, rfl⟩ := List.exists_cons_of_ne_nil h
  exact List.append_ne_nil_of_left_ne_nil String.utf8EncodeChar_ne_nil _

end Wie
