import Mathlib.Data.List.Basic

/-!
# Contents of files

A file is a list of bytes, read and written at an offset. A write past the end fills the gap with
zeros; a write of nothing changes nothing.

## Main definitions

* `readAt`, `writeAt` — what a file system does
* `resize`, `copyInto` — what is done to a buffer

## Main results

* `copyInto_resize` — a buffer that is grown where needed and copied into holds what the file holds
-/

namespace Wie

variable {c data : List UInt8} {off n : ℕ}

/-- Up to `n` bytes at an offset. -/
def readAt (c : List UInt8) (off n : ℕ) : List UInt8 := (c.drop off).take n

/-- Grow with zeros, or cut. -/
def resize (c : List UInt8) (n : ℕ) : List UInt8 := c.take n ++ List.replicate (n - c.length) 0

/-- Overwrite bytes at an offset inside a buffer. -/
def copyInto (c : List UInt8) (off : ℕ) (data : List UInt8) : List UInt8 :=
  c.take off ++ data ++ c.drop (off + data.length)

/-- Write at an offset, past the end too. -/
def writeAt (c : List UInt8) (off : ℕ) (data : List UInt8) : List UInt8 :=
  if data = [] then c
  else c.take off ++ List.replicate (off - c.length) 0 ++ data ++ c.drop (off + data.length)

@[simp] theorem length_readAt (c : List UInt8) (off n : ℕ) :
    (readAt c off n).length = min n (c.length - off) := by
  simp [readAt]

@[simp] theorem length_resize (c : List UInt8) (n : ℕ) : (resize c n).length = n := by
  simp only [resize, List.length_append, List.length_take, List.length_replicate]
  omega

theorem length_copyInto (h : off + data.length ≤ c.length) :
    (copyInto c off data).length = c.length := by
  simp only [copyInto, List.length_append, List.length_take, List.length_drop]
  omega

@[simp] theorem writeAt_nil (c : List UInt8) (off : ℕ) : writeAt c off [] = c := if_pos rfl

theorem length_writeAt (h : data ≠ []) :
    (writeAt c off data).length = max c.length (off + data.length) := by
  rw [writeAt, if_neg h]
  simp only [List.length_append, List.length_take, List.length_replicate, List.length_drop]
  omega

theorem readAt_of_le (h : c.length ≤ off) : readAt c off n = [] := by
  rw [readAt, List.drop_eq_nil_of_le h, List.take_nil]

/-- **A buffer that is grown where needed and copied into holds what the file holds.** -/
theorem copyInto_resize (h : data ≠ [] ∨ off ≤ c.length) :
    copyInto (if c.length < off + data.length then resize c (off + data.length) else c) off data =
      writeAt c off data := by
  by_cases hd : data = []
  · subst hd
    rw [writeAt_nil, List.length_nil, Nat.add_zero, if_neg (by simpa using h), copyInto]
    simp
  · rw [writeAt, if_neg hd, copyInto]
    by_cases hlt : c.length < off + data.length
    · rw [if_pos hlt, resize, List.take_of_length_le (by omega : c.length ≤ off + data.length)]
      have hdrop : (c ++ List.replicate (off + data.length - c.length) (0 : UInt8)).drop
          (off + data.length) = [] := List.drop_eq_nil_of_le (by simp; omega)
      rw [hdrop, List.drop_eq_nil_of_le (by omega : c.length ≤ off + data.length),
        List.take_append, List.take_replicate]
      congr 3
      have hpos := List.length_pos_of_ne_nil hd
      congr 1
      omega
    · rw [if_neg hlt, Nat.sub_eq_zero_of_le (by omega), List.replicate_zero, List.append_nil]

end Wie
