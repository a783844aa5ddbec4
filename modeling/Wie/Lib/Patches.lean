import Mathlib.Data.List.GetD
import Wie.Lib.ByteFile
import Wie.Lib.Bytes

/-!
# Patches of a buffer

A buffer that is overwritten in several places, inside its bounds. Where the places do not overlap,
each of them holds what was written there, whatever the order was, and all other bytes stay.

## Main definitions

* `patchAll` — overwrite one place after the other
* `PatchesApart` — two places do not overlap

## Main results

* `readAt_patchAll` — what a place holds
* `getD_patchAll_of_notMem` — a byte beside all places
-/

namespace Wie

variable {c c' data : List UInt8} {off n i : ℕ} {p : ℕ × List UInt8} {ps : List (ℕ × List UInt8)}

/-! ### One place -/

theorem getD_copyInto (h : off + data.length ≤ c.length) (i : ℕ) : (copyInto c off data).getD i 0 =
    if off ≤ i ∧ i < off + data.length then data.getD (i - off) 0 else c.getD i 0 := by
  have htake : (c.take off).length = off := by
    rw [List.length_take]
    omega
  simp only [copyInto, List.getD_eq_getElem?_getD]
  rcases Nat.lt_or_ge i off with hlt | hge
  · rw [if_neg (by omega), List.append_assoc, List.getElem?_append_left (by omega),
      List.getElem?_take_of_lt hlt]
  · rcases Nat.lt_or_ge i (off + data.length) with hin | hout
    · rw [if_pos ⟨hge, hin⟩, List.append_assoc, List.getElem?_append_right (by omega), htake,
        List.getElem?_append_left (by omega)]
    · have hboth : (c.take off ++ data).length = off + data.length := by
        rw [List.length_append, htake]
      rw [if_neg (by omega), List.getElem?_append_right (by omega), hboth, List.getElem?_drop,
        Nat.add_sub_of_le hout]

theorem getElem_readAt (h : i < (readAt c off n).length) : (readAt c off n)[i] = c.getD (off + i) 0 := by
  rw [length_readAt] at h
  simp only [readAt, List.getElem_take, List.getElem_drop]
  exact (List.getD_eq_getElem _ _ (by omega)).symm

/-- What a range holds is in its bytes. -/
theorem readAt_congr (hlen : c'.length = c.length)
    (h : ∀ i, off ≤ i → i < off + n → c'.getD i 0 = c.getD i 0) :
    readAt c' off n = readAt c off n := by
  refine List.ext_getElem (by rw [length_readAt, length_readAt, hlen]) fun i h₁ h₂ => ?_
  rw [getElem_readAt, getElem_readAt]
  rw [length_readAt] at h₁
  exact h _ (Nat.le_add_right ..) (by omega)

theorem readAt_copyInto (h : off + data.length ≤ c.length) :
    readAt (copyInto c off data) off data.length = data := by
  refine List.ext_getElem (by rw [length_readAt, length_copyInto h]; omega) fun i h₁ h₂ => ?_
  rw [getElem_readAt, getD_copyInto h, if_pos (by omega), Nat.add_sub_cancel_left]
  exact List.getD_eq_getElem _ _ h₂

/-! ### Several places -/

/-- Overwrite one place after the other. -/
def patchAll (ps : List (ℕ × List UInt8)) (c : List UInt8) : List UInt8 :=
  ps.foldl (fun c p => copyInto c p.1 p.2) c

/-- All places are inside `n` bytes. -/
def PatchesFit (n : ℕ) (ps : List (ℕ × List UInt8)) : Prop := ∀ p ∈ ps, p.1 + p.2.length ≤ n

/-- Two places do not overlap. -/
def PatchesApart (p q : ℕ × List UInt8) : Prop :=
  p.1 + p.2.length ≤ q.1 ∨ q.1 + q.2.length ≤ p.1

theorem length_patchAll (h : PatchesFit c.length ps) : (patchAll ps c).length = c.length := by
  induction ps generalizing c with
  | nil => rfl
  | cons p ps ih =>
    have hp := length_copyInto (h p List.mem_cons_self)
    have hrest : PatchesFit (copyInto c p.1 p.2).length ps := fun q hq => by
      rw [hp]
      exact h q (List.mem_cons_of_mem _ hq)
    rw [patchAll, List.foldl_cons]
    exact (ih hrest).trans hp

/-- **A byte beside all places stays.** -/
theorem getD_patchAll_of_notMem (h : PatchesFit c.length ps)
    (hi : ∀ p ∈ ps, i < p.1 ∨ p.1 + p.2.length ≤ i) : (patchAll ps c).getD i 0 = c.getD i 0 := by
  induction ps generalizing c with
  | nil => rfl
  | cons p ps ih =>
    have hfit := h p List.mem_cons_self
    have hp := hi p List.mem_cons_self
    have hrest : PatchesFit (copyInto c p.1 p.2).length ps := fun q hq => by
      rw [length_copyInto hfit]
      exact h q (List.mem_cons_of_mem _ hq)
    rw [patchAll, List.foldl_cons]
    refine (ih hrest fun q hq => hi q (List.mem_cons_of_mem _ hq)).trans ?_
    rw [getD_copyInto hfit, if_neg (by omega)]

/-- **A place holds what was written there.** -/
theorem readAt_patchAll (h : PatchesFit c.length ps) (hapart : ps.Pairwise PatchesApart)
    (hp : p ∈ ps) : readAt (patchAll ps c) p.1 p.2.length = p.2 := by
  induction ps generalizing c with
  | nil => cases hp
  | cons q ps ih =>
    obtain ⟨hq, hps⟩ := List.pairwise_cons.mp hapart
    have hfit := h q List.mem_cons_self
    have hlen := length_copyInto hfit
    have hrest : PatchesFit (copyInto c q.1 q.2).length ps := fun p hp => by
      rw [hlen]
      exact h p (List.mem_cons_of_mem _ hp)
    rw [patchAll, List.foldl_cons]
    rcases List.mem_cons.mp hp with rfl | hp
    · -- the places after it do not overlap
      have hkeep : readAt (patchAll ps (copyInto c p.1 p.2)) p.1 p.2.length =
          readAt (copyInto c p.1 p.2) p.1 p.2.length := by
        refine readAt_congr (length_patchAll hrest) fun i h1 h2 => ?_
        refine getD_patchAll_of_notMem hrest fun r hr => ?_
        have := hq r hr
        rw [PatchesApart] at this
        omega
      exact hkeep.trans (readAt_copyInto hfit)
    · exact ih hrest hps hp

end Wie
