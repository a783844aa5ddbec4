import Mathlib.Data.List.Induction

/-!
# Nested openings and closings

A record of things that are opened and closed. Those that are open form a stack; what is closed is
the top of it, and it has to fit. An opening may also be given up without being closed.

## Main definitions

* `Nesting` — the entries of the record
* `replay` — the stack after a record, if every closing fits
* `Balanced` — records that leave the stack as it was

## Main results

* `replay_append` — records one after the other
* `exists_opening` — what is on the stack was opened, and all since then is balanced
* `exists_opening_of_closing` — every closing has its opening
-/

namespace Wie

variable {ω κ : Type}

/-- An entry of the record: openings are of `ω`, closings of `κ`. -/
inductive Nesting (ω κ : Type)
  /-- An opening. -/
  | opens (o : ω)
  /-- A closing. -/
  | closes (c : κ)
  /-- The last opening is given up. -/
  | drops
deriving DecidableEq

namespace Nesting

variable {fits : ω → κ → Prop} [∀ o c, Decidable (fits o c)] {es es' : List (Nesting ω κ)}
  {st st' : List ω} {o : ω} {c : κ}

/-- One entry. -/
def apply (fits : ω → κ → Prop) [∀ o c, Decidable (fits o c)] :
    Nesting ω κ → List ω → Option (List ω)
  | opens o, st => some (o :: st)
  | closes c, o :: st => if fits o c then some st else none
  | drops, _ :: st => some st
  | _, [] => none

/-- The stack after a record, the top first. -/
def replay (fits : ω → κ → Prop) [∀ o c, Decidable (fits o c)] :
    List (Nesting ω κ) → List ω → Option (List ω)
  | [], st => some st
  | e :: es, st => (e.apply fits st).bind (replay fits es)

/-- The record leaves the stack as it was. -/
def Balanced (fits : ω → κ → Prop) [∀ o c, Decidable (fits o c)]
    (es : List (Nesting ω κ)) : Prop := replay fits es [] = some []

theorem replay_append (es es' : List (Nesting ω κ)) (st : List ω) :
    replay fits (es ++ es') st = (replay fits es st).bind (replay fits es') := by
  induction es generalizing st with
  | nil => rfl
  | cons e es ih =>
    rw [List.cons_append, replay, replay]
    cases e.apply fits st with
    | none => rfl
    | some st' => exact ih st'

theorem replay_concat (es : List (Nesting ω κ)) (e : Nesting ω κ) (st : List ω) :
    replay fits (es ++ [e]) st = (replay fits es st).bind (e.apply fits) := by
  rw [replay_append]
  refine congrArg _ (funext fun st' => ?_)
  rw [replay]
  cases e.apply fits st' <;> rfl

/-- What lies deeper on the stack does not matter. -/
theorem replay_frame (h : replay fits es st = some st') (deep : List ω) :
    replay fits es (st ++ deep) = some (st' ++ deep) := by
  induction es generalizing st with
  | nil => rw [← Option.some.inj h]; rfl
  | cons e es ih =>
    rw [replay, Option.bind_eq_some_iff] at h
    obtain ⟨mid, hmid, hrest⟩ := h
    have happly : e.apply fits (st ++ deep) = some (mid ++ deep) := by
      cases st with
      | nil =>
        cases e with
        | opens o => rw [← Option.some.inj hmid]; rfl
        | closes c => cases hmid
        | drops => cases hmid
      | cons o st =>
        cases e with
        | opens o' => rw [← Option.some.inj hmid]; rfl
        | closes c =>
          rw [apply, Option.ite_none_right_eq_some] at hmid
          rw [List.cons_append, apply, if_pos hmid.1, Option.some.inj hmid.2]
        | drops => rw [← Option.some.inj hmid]; rfl
    rw [replay, happly]
    exact ih hrest

/-- **What is on the stack was opened, and all since then is balanced.** -/
theorem exists_opening (h : replay fits es [] = some (o :: st)) :
    ∃ l r, es = l ++ opens o :: r ∧ replay fits l [] = some st ∧ Balanced fits r := by
  induction hn : es.length using Nat.strongRecOn generalizing es o st with
  | ind n ih =>
    rcases List.eq_nil_or_concat es with rfl | ⟨front, e, rfl⟩
    · cases h
    · rw [List.concat_eq_append] at h hn ⊢
      rw [replay_concat, Option.bind_eq_some_iff] at h
      obtain ⟨mid, hmid, happly⟩ := h
      rw [List.length_append, List.length_singleton] at hn
      -- an entry that takes from the stack leaves what was opened before it
      have hbelow : ∀ o', mid = o' :: o :: st → (∃ r, Balanced fits r ∧
          ∃ l, front ++ [e] = l ++ opens o :: r ∧ replay fits l [] = some st) := by
        intro o' hstack
        obtain ⟨l, r, rfl, hl, hr⟩ := ih front.length (by omega) (hstack ▸ hmid) rfl
        rw [List.length_append] at hn
        obtain ⟨l', r', rfl, hl', hr'⟩ := ih l.length (by omega) hl rfl
        have hclose : e.apply fits [o'] = some [] := by
          rw [hstack] at happly
          cases e with
          | opens a => cases happly
          | closes c =>
            rw [apply, Option.ite_none_right_eq_some] at happly
            rw [apply, if_pos happly.1]
          | drops => rfl
        refine ⟨r' ++ opens o' :: r ++ [e], ?_, l', by simp, hl'⟩
        have hopen := replay_frame hr [o']
        rw [List.nil_append] at hopen
        rw [Balanced, replay_concat, replay_append, hr']
        show ((replay fits r [o']).bind _) = _
        rw [hopen]
        exact hclose
      cases e with
      | opens a =>
        obtain ⟨rfl, rfl⟩ := List.cons.inj (Option.some.inj happly)
        exact ⟨front, [], rfl, hmid, rfl⟩
      | closes c =>
        cases mid with
        | nil => cases happly
        | cons o' mid =>
          rw [apply, Option.ite_none_right_eq_some] at happly
          obtain ⟨r, hr, l, hsplit, hl⟩ := hbelow o' (by rw [Option.some.inj happly.2])
          exact ⟨l, r, hsplit, hl, hr⟩
      | drops =>
        cases mid with
        | nil => cases happly
        | cons o' mid =>
          obtain ⟨r, hr, l, hsplit, hl⟩ := hbelow o' (by rw [Option.some.inj happly])
          exact ⟨l, r, hsplit, hl, hr⟩

/-- **Every closing has its opening**, and what is between them is balanced. -/
theorem exists_opening_of_closing (h : replay fits (es ++ closes c :: es') [] = some st) :
    ∃ l o r, es = l ++ opens o :: r ∧ Balanced fits r ∧ fits o c := by
  rw [replay_append, Option.bind_eq_some_iff] at h
  obtain ⟨mid, hmid, hrest⟩ := h
  rw [replay, Option.bind_eq_some_iff] at hrest
  obtain ⟨next, happly, -⟩ := hrest
  cases mid with
  | nil => cases happly
  | cons o mid =>
    rw [apply, Option.ite_none_right_eq_some] at happly
    obtain ⟨l, r, hsplit, -, hr⟩ := exists_opening hmid
    exact ⟨l, o, r, hsplit, hr, happly.1⟩

end Nesting

end Wie
