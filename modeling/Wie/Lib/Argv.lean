import Mathlib.Data.List.Basic
import Mathlib.Tactic.Ring

/-!
# Splitting a Windows command line

Microsoft's rules for the arguments of a command line. The name of the program comes first and has
no escapes. In the arguments behind it a backslash has no meaning of its own; it gets one from the
quote at the end of its run. Of `2 * n` backslashes before a quote `n` are left, and the quote opens
or closes a quoted part; of `2 * n + 1` of them `n` are left, and the quote is a character.

How much of a text survives the splitting is counted by weights, two for a backslash and one for a
quote: then a run of backslashes and the quote behind it weigh as much as the run has characters,
whichever rule applies to them.

## Main definitions

* `Argv.Reading`, `Argv.Reading.step` — an argument being read, and one more character of it
* `Argv.splitFrom`, `Argv.splitProgram`, `Argv.splitCommandLine` — the rules
* `Argv.weight`, `Argv.gain` — of what comes out, and of what will come out of a text

## Main results

* `Argv.sum_weight_splitFrom` — they agree
* `Argv.splitFrom_plain`, `Argv.splitProgram_plain` — characters without a meaning
-/

namespace Wie

namespace Argv

/-- Separates arguments. -/
def isBlank (c : Char) : Bool := c = ' ' ∨ c = '\t'

/-- An argument being read. -/
structure Reading where
  /-- Inside a quoted part. -/
  quoted : Bool
  /-- Backslashes whose meaning is not known yet. -/
  slashes : ℕ
  /-- The characters before them. -/
  text : List Char

namespace Reading

/-- Nothing is read yet. -/
def start : Reading := ⟨false, 0, []⟩

/-- The argument, if it ends here: backslashes stand for themselves. -/
def finish (s : Reading) : List Char := s.text ++ List.replicate s.slashes '\\'

/-- One more character. -/
def step (s : Reading) (c : Char) : Reading :=
  if c = '\\' then { s with slashes := s.slashes + 1 }
  else if c = '"' then
    let half := s.text ++ List.replicate (s.slashes / 2) '\\'
    if s.slashes % 2 = 0 then ⟨!s.quoted, 0, half⟩ else ⟨s.quoted, 0, half ++ ['"']⟩
  else ⟨s.quoted, 0, s.finish ++ [c]⟩

end Reading

/-- The arguments of a text, between two of them or within one. -/
def splitFrom : Option Reading → List Char → List (List Char)
  | none, [] => []
  | some s, [] => [s.finish]
  | none, c :: cs => if isBlank c then splitFrom none cs else splitFrom (some (.step .start c)) cs
  | some s, c :: cs =>
    if s.quoted = false ∧ isBlank c then s.finish :: splitFrom none cs
    else splitFrom (some (s.step c)) cs

/-- The name of the program, and what is behind it: quotes are left out, and blanks between them
are part of the name. -/
def splitProgram : (quoted : Bool) → List Char → List Char × List Char
  | _, [] => ([], [])
  | quoted, c :: cs =>
    if c = '"' then splitProgram (!quoted) cs
    else if quoted = false ∧ isBlank c then ([], c :: cs)
    else (c :: (splitProgram quoted cs).1, (splitProgram quoted cs).2)

/-- **The rules**: the name of the program, then the arguments. -/
def splitCommandLine (line : List Char) : List (List Char) :=
  (splitProgram false line).1 :: splitFrom none (splitProgram false line).2

/-- What is behind an argument: nothing, or a blank. -/
def Delimited (rest : List Char) : Prop := ∀ c cs, rest = c :: cs → isBlank c = true

theorem delimited_nil : Delimited [] := fun _ _ h => by cases h

theorem delimited_space (cs : List Char) : Delimited (' ' :: cs) := by
  intro c cs' h
  cases h
  rfl

/-! ### Characters without a meaning -/

variable {s : Reading} {c : Char} {w rest : List Char}

theorem splitFrom_some_cons (h : ¬(s.quoted = false ∧ isBlank c = true)) (cs : List Char) :
    splitFrom (some s) (c :: cs) = splitFrom (some (s.step c)) cs := by
  rw [splitFrom, if_neg h]

/-- An argument starts with its first character. -/
theorem splitFrom_none_cons (h : isBlank c = false) (cs : List Char) :
    splitFrom none (c :: cs) = splitFrom (some .start) (c :: cs) := by
  rw [splitFrom, splitFrom_some_cons (by simp [h]), h, if_neg Bool.false_ne_true]

theorem splitFrom_blank (h : isBlank c = true) (cs : List Char) :
    splitFrom none (c :: cs) = splitFrom none cs := by
  rw [splitFrom, if_pos h]

/-- Outside of quotes an argument ends at a blank. -/
theorem splitFrom_delimited (hs : s.quoted = false) (hr : Delimited rest) :
    splitFrom (some s) rest = s.finish :: splitFrom none rest := by
  cases rest with
  | nil => rfl
  | cons c cs =>
    have hc := hr c cs rfl
    rw [splitFrom_blank hc, splitFrom, if_pos ⟨hs, hc⟩]

namespace Reading

theorem step_slash (s : Reading) : s.step '\\' = { s with slashes := s.slashes + 1 } := if_pos rfl

/-- A quote behind pairs of backslashes opens or closes a quoted part. -/
theorem step_even {s : Reading} (h : s.slashes % 2 = 0) :
    s.step '"' = ⟨!s.quoted, 0, s.text ++ List.replicate (s.slashes / 2) '\\'⟩ := by
  rw [step, if_neg (by decide), if_pos rfl]
  exact if_pos h

/-- Behind one more backslash it is a character. -/
theorem step_odd {s : Reading} (h : s.slashes % 2 ≠ 0) :
    s.step '"' = ⟨s.quoted, 0, s.text ++ List.replicate (s.slashes / 2) '\\' ++ ['"']⟩ := by
  rw [step, if_neg (by decide), if_pos rfl]
  exact if_neg h

theorem step_other {s : Reading} (h1 : c ≠ '\\') (h2 : c ≠ '"') :
    s.step c = ⟨s.quoted, 0, s.finish ++ [c]⟩ := by
  rw [step, if_neg h1, if_neg h2]

/-- But for quotes, a character is added to what is read. -/
theorem finish_step {s : Reading} (h : c ≠ '"') : (s.step c).finish = s.finish ++ [c] := by
  by_cases h1 : c = '\\'
  · subst h1
    rw [step_slash, finish, finish, List.replicate_succ', List.append_assoc]
  · rw [step_other h1 h, finish, List.replicate_zero, List.append_nil]

theorem quoted_step {s : Reading} (h : c ≠ '"') : (s.step c).quoted = s.quoted := by
  by_cases h1 : c = '\\'
  · subst h1
    rw [step_slash]
  · rw [step_other h1 h]

end Reading

/-- **Without quotes and blanks** a text is part of the argument as it stands. -/
theorem splitFrom_plain (hr : Delimited rest) : ∀ {w : List Char} {s : Reading}, s.quoted = false →
    (∀ c ∈ w, c ≠ '"' ∧ isBlank c = false) →
      splitFrom (some s) (w ++ rest) = (s.finish ++ w) :: splitFrom none rest
  | [], s, hs, _ => by rw [List.nil_append, List.append_nil, splitFrom_delimited hs hr]
  | c :: w, s, hs, hw => by
    obtain ⟨hq, hb⟩ := hw c List.mem_cons_self
    have ih := splitFrom_plain hr (w := w) ((Reading.quoted_step hq).trans hs)
      fun d hd => hw d (List.mem_cons_of_mem c hd)
    rw [List.cons_append, splitFrom_some_cons (by simp [hb]), ih, Reading.finish_step hq,
      List.append_assoc, List.singleton_append]

/-- A name without quotes, up to a blank or in quotes. -/
theorem splitProgram_plain (hr : Delimited rest) : ∀ {w : List Char},
    (∀ c ∈ w, c ≠ '"' ∧ isBlank c = false) → splitProgram false (w ++ rest) = (w, rest)
  | [], _ => by
    cases rest with
    | nil => rfl
    | cons c cs =>
      have hc := hr c cs rfl
      have hq : c ≠ '"' := by
        rintro rfl
        exact absurd hc (by decide)
      rw [List.nil_append, splitProgram, if_neg hq, if_pos ⟨rfl, hc⟩]
  | c :: w, hw => by
    obtain ⟨hq, hb⟩ := hw c List.mem_cons_self
    have ih := splitProgram_plain hr (w := w) fun d hd => hw d (List.mem_cons_of_mem c hd)
    rw [List.cons_append, splitProgram, if_neg hq, if_neg (by simp [hb]), ih]

theorem splitProgram_quoted (hr : Delimited rest) : ∀ {w : List Char}, (∀ c ∈ w, c ≠ '"') →
    splitProgram true (w ++ '"' :: rest) = (w, rest)
  | [], _ => by
    rw [List.nil_append, splitProgram, if_pos rfl]
    exact splitProgram_plain (w := []) hr fun _ h => absurd h List.not_mem_nil
  | c :: w, hw => by
    have ih := splitProgram_quoted hr (w := w) fun d hd => hw d (List.mem_cons_of_mem c hd)
    rw [List.cons_append, splitProgram, if_neg (hw c List.mem_cons_self), if_neg (by simp), ih]

/-! ### Weights -/

/-- Two for a backslash, one for a quote. -/
def charWeight (c : Char) : ℕ := if c = '\\' then 2 else if c = '"' then 1 else 0

/-- The weight of a text. -/
def weight (w : List Char) : ℕ := (w.map charWeight).sum

/-- The weight of the arguments to come, with `slashes` backslashes before the text. -/
def gain : (slashes : ℕ) → List Char → ℕ
  | k, [] => 2 * k
  | k, c :: cs =>
    if c = '\\' then gain (k + 1) cs else if c = '"' then k + gain 0 cs else 2 * k + gain 0 cs

theorem weight_nil : weight [] = 0 := rfl

theorem weight_cons (c : Char) (w : List Char) : weight (c :: w) = charWeight c + weight w := by
  rw [weight, List.map_cons, List.sum_cons, weight]

theorem weight_append (v w : List Char) : weight (v ++ w) = weight v + weight w := by
  rw [weight, List.map_append, List.sum_append, weight, weight]

theorem weight_slashes (n : ℕ) : weight (List.replicate n '\\') = 2 * n := by
  rw [weight, List.map_replicate, List.sum_replicate_nat, charWeight, if_pos rfl, Nat.mul_comm]

theorem charWeight_other (h1 : c ≠ '\\') (h2 : c ≠ '"') : charWeight c = 0 := by
  rw [charWeight, if_neg h1, if_neg h2]

theorem isBlank_other (h : isBlank c = true) : c ≠ '\\' ∧ c ≠ '"' := by
  constructor <;> rintro rfl <;> exact absurd h (by decide)

/-- One character moves weight from what is to come to what is read. -/
theorem weight_step (s : Reading) (c : Char) (cs : List Char) :
    weight (s.step c).text + gain (s.step c).slashes cs =
      weight s.text + gain s.slashes (c :: cs) := by
  by_cases h1 : c = '\\'
  · subst h1
    rw [Reading.step_slash, gain, if_pos rfl]
  by_cases h2 : c = '"'
  · subst h2
    rw [gain, if_neg h1, if_pos rfl]
    by_cases hk : s.slashes % 2 = 0
    · rw [Reading.step_even hk]
      simp only [weight_append, weight_slashes]
      omega
    · rw [Reading.step_odd hk]
      simp only [weight_append, weight_slashes, show weight ['"'] = 1 from rfl]
      omega
  · rw [Reading.step_other h1 h2, gain, if_neg h1, if_neg h2]
    simp only [weight_append, weight_cons, charWeight_other h1 h2, Reading.finish,
      weight_slashes, weight_nil]
    omega

/-- The weight of an argument being read. -/
def heldWeight : Option Reading → ℕ
  | none => 0
  | some s => weight s.text

/-- Its backslashes. -/
def heldSlashes : Option Reading → ℕ
  | none => 0
  | some s => s.slashes

/-- **What comes out weighs what was counted**, whatever the quotes do. -/
theorem sum_weight_splitFrom : ∀ (s : Option Reading) (cs : List Char),
    ((splitFrom s cs).map weight).sum = heldWeight s + gain (heldSlashes s) cs
  | none, [] => rfl
  | some s, [] => by
    simp only [splitFrom, heldWeight, heldSlashes, gain, Reading.finish, List.map_singleton,
      List.sum_singleton, weight_append, weight_slashes]
  | none, c :: cs => by
    rw [splitFrom]
    split
    · rename_i hb
      obtain ⟨h1, h2⟩ := isBlank_other hb
      rw [sum_weight_splitFrom none cs]
      simp only [heldWeight, heldSlashes, gain, if_neg h1, if_neg h2]
      omega
    · rw [sum_weight_splitFrom (some (.step .start c)) cs]
      exact weight_step .start c cs
  | some s, c :: cs => by
    rw [splitFrom]
    split
    · rename_i hb
      obtain ⟨h1, h2⟩ := isBlank_other hb.2
      rw [List.map_cons, List.sum_cons, sum_weight_splitFrom none cs, Reading.finish,
        weight_append, weight_slashes]
      simp only [heldWeight, heldSlashes, gain, if_neg h1, if_neg h2]
      omega
    · rw [sum_weight_splitFrom (some (s.step c)) cs]
      exact weight_step s c cs

end Argv

end Wie
