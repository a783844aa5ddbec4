import Wie.Lib.Flat

/-!
# Copying in elements

A range is copied forwards, one element after the other, and each element is read as a whole before
it is written. Where the target starts inside the source, what is read may have been written before,
and the size of the elements matters: a byte of the target comes from the start of the source by as
many steps back as there were bytes already written.

## Main definitions

* `Flat.copyElems` — `n` elements of `e` bytes
* `Flat.copyChunks` — a range in elements of `e` bytes, the last of which may be shorter
* `origin` — where in the source a byte of the target comes from

## Main results

* `Flat.byte_copyElems` — the bytes after the copy, in terms of those before
* `Flat.copyElems_of_apart` — without such an overlap it is a copy of the range
* `Flat.copyChunks_eq_put_iff` — when it is one
-/

namespace Wie

/-- With elements of `e` bytes and a target that starts `d` bytes into the source: the offset in the
source that byte `j` of the target comes from. -/
def origin (e d j : ℕ) : ℕ :=
  if _h : 0 < d ∧ d ≤ j ∧ j % e < d then origin e d (j - d) else j
termination_by j
decreasing_by omega

theorem origin_of_lt {e d j : ℕ} (h : ¬(0 < d ∧ d ≤ j ∧ j % e < d)) : origin e d j = j := by
  rw [origin, dif_neg h]

theorem origin_step {e d j : ℕ} (h : 0 < d ∧ d ≤ j ∧ j % e < d) :
    origin e d j = origin e d (j - d) := by
  rw [origin, dif_pos h]

theorem origin_le (e d j : ℕ) : origin e d j ≤ j := by
  induction j using Nat.strong_induction_on with
  | _ j ih =>
    by_cases h : 0 < d ∧ d ≤ j ∧ j % e < d
    · rw [origin_step h]
      exact (ih (j - d) (by omega)).trans (Nat.sub_le ..)
    · rw [origin_of_lt h]

/-- The size of the elements does not matter if the target starts no less than one element on. -/
theorem origin_eq {e e' d : ℕ} (he : 0 < e) (he' : 0 < e') (h : e ≤ d) (h' : e' ≤ d) (j : ℕ) :
    origin e d j = origin e' d j := by
  induction j using Nat.strong_induction_on with
  | _ j ih =>
    have := Nat.mod_lt j he
    have := Nat.mod_lt j he'
    by_cases hd : d ≤ j
    · rw [origin_step ⟨by omega, hd, by omega⟩, origin_step ⟨by omega, hd, by omega⟩]
      exact ih (j - d) (by omega)
    · rw [origin_of_lt (by omega), origin_of_lt (by omega)]

namespace Flat

variable {m m' : Flat} {e src dst n : ℕ}

/-- Memories with the same bytes and the same permissions. -/
theorem ext_byte (hr : m'.readable = m.readable) (hw : m'.writable = m.writable)
    (hb : ∀ x, m'.byte x = m.byte x) : m' = m := by
  obtain ⟨b, r, w, h⟩ := m
  obtain ⟨b', r', w', h'⟩ := m'
  obtain rfl : b' = b := funext hb
  obtain rfl : r' = r := hr
  obtain rfl : w' = w := hw
  rfl

/-- Copy `n` elements of `e` bytes forwards. -/
def copyElems (m : Flat) (e src dst : ℕ) : ℕ → Flat
  | 0 => m
  | n + 1 =>
    let c := m.copyElems e src dst n
    c.put (dst + n * e) (c.bytes (src + n * e) e)

@[simp] theorem readable_copyElems (m : Flat) (e src dst n : ℕ) :
    (m.copyElems e src dst n).readable = m.readable := by
  induction n with
  | zero => rfl
  | succ n ih => rw [copyElems, readable_put, ih]

@[simp] theorem writable_copyElems (m : Flat) (e src dst n : ℕ) :
    (m.copyElems e src dst n).writable = m.writable := by
  induction n with
  | zero => rfl
  | succ n ih => rw [copyElems, writable_put, ih]

theorem byte_put_eq (m : Flat) (a : ℕ) (bs : List UInt8) (x : ℕ) :
    (m.put a bs).byte x = if a ≤ x ∧ x < a + bs.length then bs.getD (x - a) 0 else m.byte x := rfl

/-- Bytes put one before the other. -/
theorem put_prepend (m : Flat) (a : ℕ) (xs ys : List UInt8) :
    (m.put (a + ys.length) xs).put a ys = m.put a (ys ++ xs) := by
  refine ext_byte rfl rfl fun x => ?_
  rw [byte_put_eq, byte_put_eq, byte_put_eq, List.length_append, List.getD_eq_getElem?_getD,
    List.getD_eq_getElem?_getD, List.getD_eq_getElem?_getD]
  by_cases h1 : a ≤ x ∧ x < a + ys.length
  · rw [if_pos h1, if_pos (by omega), List.getElem?_append_left (by omega)]
  · rw [if_neg h1]
    by_cases h2 : a + ys.length ≤ x ∧ x < a + ys.length + xs.length
    · rw [if_pos h2, if_pos (by omega), List.getElem?_append_right (by omega), Nat.sub_sub]
    · rw [if_neg h2, if_neg (by omega)]

theorem getD_bytes (m : Flat) (a : ℕ) {n i : ℕ} (h : i < n) :
    (m.bytes a n).getD i 0 = m.byte (a + i) := by
  rw [List.getD_eq_getElem?_getD, bytes, List.getElem?_map, List.getElem?_range h]
  rfl

/-- **The bytes after a copy.** -/
theorem byte_copyElems (he : 0 < e) (m : Flat) (src dst n x : ℕ) :
    (m.copyElems e src dst n).byte x =
      if dst ≤ x ∧ x < dst + n * e then m.byte (src + origin e (dst - src) (x - dst))
      else m.byte x := by
  induction n generalizing x with
  | zero => rw [copyElems, if_neg (by omega)]
  | succ n ih =>
    rw [copyElems, byte_put_eq, length_bytes, Nat.succ_mul]
    by_cases hlast : dst + n * e ≤ x ∧ x < dst + n * e + e
    · -- the element just copied: what was read may have been written by an earlier one
      have hx : dst ≤ x ∧ x < dst + (n * e + e) := by omega
      rw [if_pos hlast, if_pos hx, getD_bytes _ _ (by omega), ih]
      have hmod : (x - dst) % e = x - dst - n * e := by
        have hx : x - dst = (x - dst - n * e) + n * e := by omega
        rw [hx, Nat.add_mul_mod_self_right, Nat.mod_eq_of_lt (by omega)]
        omega
      by_cases hread : dst ≤ src + n * e + (x - (dst + n * e)) ∧
          src + n * e + (x - (dst + n * e)) < dst + n * e
      · rw [if_pos hread]
        by_cases hd : 0 < dst - src
        · rw [origin_step (j := x - dst) ⟨hd, by omega, by omega⟩]
          congr 3
          omega
        · omega
      · rw [if_neg hread, origin_of_lt (by omega)]
        congr 1
        omega
    · rw [if_neg hlast, ih]
      refine if_congr ?_ rfl rfl
      omega

/-- The target does not start in the source, or not before its end. -/
def Apart (src dst len : ℕ) : Prop := dst ≤ src ∨ src + len ≤ dst

theorem origin_of_apart {j len : ℕ} (h : Apart src dst len) (hj : j < len) :
    origin e (dst - src) j = j :=
  origin_of_lt (by rcases h with h | h <;> omega)

/-- **A copy of the range**, where the target does not start in the source. -/
theorem copyElems_of_apart (he : 0 < e) (h : Apart src dst (n * e)) :
    m.copyElems e src dst n = m.put dst (m.bytes src (n * e)) := by
  refine ext_byte (readable_copyElems ..) (writable_copyElems ..) fun x => ?_
  rw [byte_copyElems he, byte_put_eq, length_bytes]
  by_cases hx : dst ≤ x ∧ x < dst + n * e
  · rw [if_pos hx, if_pos hx, getD_bytes _ _ (by omega), origin_of_apart h (by omega)]
  · rw [if_neg hx, if_neg hx]

/-- When a write changes nothing. -/
theorem put_eq_self_iff {a : ℕ} {bs : List UInt8} : m.put a bs = m ↔ m.bytes a bs.length = bs := by
  constructor
  · intro h
    conv_lhs => rw [← h]
    exact bytes_put m a bs
  · intro h
    refine ext_byte rfl rfl fun x => ?_
    rw [byte_put_eq]
    by_cases hx : a ≤ x ∧ x < a + bs.length
    · rw [if_pos hx, ← h, getD_bytes m a (by omega), Nat.add_sub_of_le hx.1]
    · rw [if_neg hx]

/-- Some elements and then more. -/
theorem copyElems_add (m : Flat) (e src dst n k : ℕ) :
    (m.copyElems e src dst n).copyElems e (src + n * e) (dst + n * e) k =
      m.copyElems e src dst (n + k) := by
  induction k with
  | zero => rfl
  | succ k ih =>
    rw [copyElems, ih, ← Nat.add_assoc, copyElems, Nat.add_mul, Nat.add_assoc, Nat.add_assoc]

/-- Copy a range in elements of `e` bytes; the last may be shorter. -/
def copyChunks (m : Flat) (e src dst len : ℕ) : Flat :=
  let c := m.copyElems e src dst (len / e)
  c.put (dst + len / e * e) (c.bytes (src + len / e * e) (len % e))

theorem copyChunks_of_lt {len : ℕ} (h : len < e) :
    m.copyChunks e src dst len = m.put dst (m.bytes src len) := by
  rw [copyChunks, Nat.div_eq_of_lt h, Nat.mod_eq_of_lt h, Nat.zero_mul]
  rfl

/-- The first element and the others. -/
theorem copyChunks_step (he : 0 < e) (len : ℕ) : m.copyChunks e src dst (e + len) =
    (m.put dst (m.bytes src e)).copyChunks e (src + e) (dst + e) len := by
  have hone : m.put dst (m.bytes src e) = m.copyElems e src dst 1 := by
    rw [copyElems, copyElems, Nat.zero_mul, Nat.add_zero, Nat.add_zero]
  have hadd := m.copyElems_add e src dst 1 (len / e)
  rw [Nat.one_mul] at hadd
  rw [copyChunks, copyChunks, hone, hadd, Nat.add_div_left _ he, Nat.add_mod_left,
    Nat.add_comm (len / e) 1, Nat.add_mul, Nat.one_mul, Nat.add_assoc, Nat.add_assoc]

/-- In elements that fit. -/
theorem copyChunks_mul (he : 0 < e) (n : ℕ) :
    m.copyChunks e src dst (n * e) = m.copyElems e src dst n := by
  rw [copyChunks, Nat.mul_div_cancel _ he, Nat.mul_mod_left]
  exact put_nil ..

/-- **A copy of the range**, where the target does not start in the source. -/
theorem copyChunks_of_apart (he : 0 < e) {len : ℕ} (h : Apart src dst len) :
    m.copyChunks e src dst len = m.put dst (m.bytes src len) := by
  have hlen : len / e * e + len % e = len := Nat.div_add_mod' ..
  have hfirst : Apart src dst (len / e * e) := by
    rcases h with h | h
    · exact .inl h
    · exact .inr (by omega)
  have hrest : (m.put dst (m.bytes src (len / e * e))).bytes (src + len / e * e) (len % e) =
      m.bytes (src + len / e * e) (len % e) := by
    refine bytes_congr fun x h1 h2 => byte_put_of_notMem ?_
    rw [length_bytes]
    rcases h with h | h <;> omega
  have hput := m.put_append dst (m.bytes src (len / e * e)) (m.bytes (src + len / e * e) (len % e))
  rw [length_bytes, ← bytes_add, hlen] at hput
  rw [copyChunks, copyElems_of_apart he hfirst, hrest, hput]

theorem byte_copyChunks (he : 0 < e) (m : Flat) (src dst len x : ℕ) :
    (m.copyChunks e src dst len).byte x =
      if dst ≤ x ∧ x < dst + len then m.byte (src + origin e (dst - src) (x - dst))
      else m.byte x := by
  have hlen : len / e * e + len % e = len := Nat.div_add_mod' ..
  rw [copyChunks, byte_put_eq, length_bytes, byte_copyElems he]
  by_cases hlast : dst + len / e * e ≤ x ∧ x < dst + len / e * e + len % e
  · -- a byte of the short element: one more whole element would have given it the same value
    have hwhole := byte_copyElems he m src dst (len / e + 1) x
    have hlt := Nat.mod_lt len he
    rw [copyElems, byte_put_eq, length_bytes, if_pos (by omega), Nat.succ_mul,
      if_pos (by omega), getD_bytes _ _ (by omega)] at hwhole
    rw [if_pos hlast, if_pos (by omega), getD_bytes _ _ (by omega), hwhole]
  · rw [if_neg hlast]
    refine if_congr ?_ rfl rfl
    omega

/-- When a copy in elements is a copy of the range: what an element reads after an earlier one has
written it had that value before. -/
theorem copyChunks_eq_put_iff (he : 0 < e) (src dst len : ℕ) :
    m.copyChunks e src dst len = m.put dst (m.bytes src len) ↔
      ∀ j < len, 0 < dst - src → dst - src ≤ j → j % e < dst - src →
        m.byte (src + (j - (dst - src))) = m.byte (src + j) := by
  have hbyte : ∀ j < len, (m.copyChunks e src dst len).byte (dst + j) =
      m.byte (src + origin e (dst - src) j) := by
    intro j hj
    rw [byte_copyChunks he, if_pos (by omega), Nat.add_sub_cancel_left]
  have hput : ∀ j < len, (m.put dst (m.bytes src len)).byte (dst + j) = m.byte (src + j) := by
    intro j hj
    rw [byte_put_eq, length_bytes, if_pos (by omega), Nat.add_sub_cancel_left, getD_bytes _ _ hj]
  constructor
  · intro h
    -- both bytes come from one place of the source
    have horigin : ∀ j < len, m.byte (src + origin e (dst - src) j) = m.byte (src + j) := by
      intro j hj
      rw [← hbyte j hj, h, hput j hj]
    intro j hj h0 hd hm
    rw [← horigin j hj, origin_step ⟨h0, hd, hm⟩, horigin _ (by omega)]
  · intro h
    have horigin : ∀ j < len, m.byte (src + origin e (dst - src) j) = m.byte (src + j) := by
      intro j
      induction j using Nat.strong_induction_on with
      | _ j ih =>
        intro hj
        by_cases hstep : 0 < dst - src ∧ dst - src ≤ j ∧ j % e < dst - src
        · rw [origin_step hstep, ih _ (by omega) (by omega), h j hj hstep.1 hstep.2.1 hstep.2.2]
        · rw [origin_of_lt hstep]
    refine ext_byte ?_ ?_ fun x => ?_
    · rw [copyChunks, readable_put, readable_put, readable_copyElems]
    · rw [copyChunks, writable_put, writable_put, writable_copyElems]
    · by_cases hx : dst ≤ x ∧ x < dst + len
      · obtain ⟨j, rfl⟩ := Nat.exists_eq_add_of_le hx.1
        rw [hbyte j (by omega), hput j (by omega), horigin j (by omega)]
      · rw [byte_copyChunks he, if_neg hx, byte_put_eq, length_bytes, if_neg hx]

end Flat

end Wie
