import Wie.Lib.Argv

/-!
# The command line of a guest

`build_windows_command_line` writes the arguments of a run into the text the guest gets from
`GetCommandLine`. An argument that is empty or has blanks or quotes is put in quotes, and each quote
within gets a backslash before it. The backslashes of the argument itself are left alone: directly
before a quote, or at the end where the closing quote follows, they are read as escapes.

A text is the list of its characters.

## Main definitions

* `needsQuotes`, `quoteWindowsArg`, `buildWindowsCommandLine` — the source
* `Harmless` — what quoting does not change the meaning of

## Main results

* `splitCommandLine_build_iff` — exactly which arguments come back
-/

namespace Wie

open Argv

variable {name w rest : List Char} {args : List (List Char)}

/-! ### The source -/

/-- The condition of `quote_windows_arg`. -/
def needsQuotes (arg : List Char) : Bool :=
  arg.isEmpty || arg.any fun c => c == ' ' || c == '\t' || c == '"'

/-- What the loop of `quote_windows_arg` pushes for the characters of an argument. -/
def escapeQuotes (arg : List Char) : List Char :=
  arg.flatMap fun c => if c = '"' then ['\\', c] else [c]

/-- `quote_windows_arg`. -/
def quoteWindowsArg (arg : List Char) : List Char :=
  if needsQuotes arg then '"' :: (escapeQuotes arg ++ ['"']) else arg

/-- `build_windows_command_line`. -/
def buildWindowsCommandLine (argv0 : List Char) (extraArgs : List (List Char)) : List Char :=
  quoteWindowsArg argv0 ++ extraArgs.flatMap fun arg => ' ' :: quoteWindowsArg arg

/-! ### Backslashes before quotes -/

/-- Behind a backslash there is another character, and it is not a quote. -/
def SlashesInside (w : List Char) : Prop :=
  ∀ i, w[i]? = some '\\' → ∃ c, w[i + 1]? = some c ∧ c ≠ '"'

/-- The argument needs no quotes, or has no backslash directly before a quote or at its end. -/
def Harmless (w : List Char) : Prop := needsQuotes w → SlashesInside w

/-- The backslashes that stand directly before a quote or the end. -/
def slashLoss : (slashes : ℕ) → List Char → ℕ
  | k, [] => k
  | k, c :: w =>
    if c = '\\' then slashLoss (k + 1) w
    else if c = '"' then k + slashLoss 0 w
    else slashLoss 0 w

theorem slashesInside_cons {c : Char} :
    SlashesInside (c :: w) ↔
      (c = '\\' → ∃ d, w[0]? = some d ∧ d ≠ '"') ∧ SlashesInside w := by
  constructor
  · exact fun h => ⟨fun hc => h 0 (congrArg some hc), fun i => h (i + 1)⟩
  · rintro ⟨h0, h⟩ (_ | i) hi
    · exact h0 (Option.some.inj hi)
    · exact h i hi

/-- With backslashes before the text, the first character of it matters. -/
theorem slashLoss_eq_zero_iff : ∀ {k : ℕ} {w : List Char},
    slashLoss k w = 0 ↔ (k ≠ 0 → ∃ d, w[0]? = some d ∧ d ≠ '"') ∧ SlashesInside w
  | k, [] => by simp [slashLoss, SlashesInside]
  | k, c :: w => by
    rw [slashLoss, slashesInside_cons]
    by_cases h1 : c = '\\'
    · subst h1
      rw [if_pos rfl, slashLoss_eq_zero_iff]
      simp
    by_cases h2 : c = '"'
    · subst h2
      rw [if_neg h1, if_pos rfl, Nat.add_eq_zero_iff, slashLoss_eq_zero_iff]
      simp
    · rw [if_neg h1, if_neg h2, slashLoss_eq_zero_iff]
      simp [h1, h2]

theorem escapeQuotes_quote (w : List Char) :
    escapeQuotes ('"' :: w) = '\\' :: '"' :: escapeQuotes w := rfl

theorem escapeQuotes_other {c : Char} (h : c ≠ '"') (w : List Char) :
    escapeQuotes (c :: w) = c :: escapeQuotes w := by
  rw [escapeQuotes, List.flatMap_cons, if_neg h]
  rfl

/-- **What is lost in quotes** is what stands before a quote or the end. -/
theorem gain_escapeQuotes (rest : List Char) : ∀ (k : ℕ) (w : List Char),
    gain k (escapeQuotes w ++ '"' :: rest) + slashLoss k w = 2 * k + weight w + gain 0 rest
  | k, [] => by
    rw [escapeQuotes, List.flatMap_nil, List.nil_append, gain, if_neg (by decide), if_pos rfl,
      slashLoss, weight_nil]
    omega
  | k, c :: w => by
    rw [slashLoss, weight_cons]
    by_cases h1 : c = '\\'
    · subst h1
      have ih := gain_escapeQuotes rest (k + 1) w
      rw [escapeQuotes_other (by decide), List.cons_append, gain, if_pos rfl, if_pos rfl,
        show charWeight '\\' = 2 from rfl]
      omega
    by_cases h2 : c = '"'
    · subst h2
      have ih := gain_escapeQuotes rest 0 w
      rw [escapeQuotes_quote, List.cons_append, List.cons_append, gain, if_pos rfl, gain,
        if_neg h1, if_pos rfl, if_neg h1, if_pos rfl, show charWeight '"' = 1 from rfl]
      omega
    · have ih := gain_escapeQuotes rest 0 w
      rw [escapeQuotes_other h2, List.cons_append, gain, if_neg h1, if_neg h2, if_neg h1,
        if_neg h2, charWeight_other h1 h2]
      omega

/-- The backslashes of an argument that quoting loses. -/
def argLoss (w : List Char) : ℕ := if needsQuotes w then slashLoss 0 w else 0

theorem argLoss_eq_zero_iff : argLoss w = 0 ↔ Harmless w := by
  rw [argLoss, Harmless]
  split
  · rename_i h
    simp [slashLoss_eq_zero_iff, h]
  · rename_i h
    simp [h]

instance : Decidable (Harmless w) := decidable_of_iff (argLoss w = 0) argLoss_eq_zero_iff

/-! ### One argument -/

/-- **In quotes** a text without such backslashes is read as it was. -/
theorem splitFrom_escapeQuotes (rest : List Char) : ∀ {k : ℕ} {t w : List Char},
    slashLoss k w = 0 → splitFrom (some ⟨true, k, t⟩) (escapeQuotes w ++ '"' :: rest) =
      splitFrom (some ⟨false, 0, t ++ List.replicate k '\\' ++ w⟩) rest
  | k, t, [], h => by
    have hk : k = 0 := h
    subst hk
    rw [escapeQuotes, List.flatMap_nil, List.nil_append, splitFrom_some_cons (by simp),
      Reading.step_even rfl]
    simp
  | k, t, c :: w, h => by
    rw [slashLoss] at h
    by_cases h1 : c = '\\'
    · subst h1
      have ih := splitFrom_escapeQuotes rest (t := t) (w := w) h
      rw [escapeQuotes_other (by decide), List.cons_append, splitFrom_some_cons (by simp),
        Reading.step_slash, ih, List.replicate_succ']
      simp
    by_cases h2 : c = '"'
    · subst h2
      rw [if_neg h1, if_pos rfl, Nat.add_eq_zero_iff] at h
      obtain ⟨rfl, hw⟩ := h
      have ih := splitFrom_escapeQuotes rest (k := 0) (t := t ++ ['"']) hw
      rw [escapeQuotes_quote, List.cons_append, List.cons_append,
        splitFrom_some_cons (by simp), Reading.step_slash, splitFrom_some_cons (by simp),
        Reading.step_odd (by simp)]
      simpa using ih
    · rw [if_neg h1, if_neg h2] at h
      have ih := splitFrom_escapeQuotes rest (k := 0) (t := t ++ List.replicate k '\\' ++ [c]) h
      rw [escapeQuotes_other h2, List.cons_append, splitFrom_some_cons (by simp),
        Reading.step_other h1 h2]
      simpa [Reading.finish] using ih

/-- What an argument without quotes around it consists of. -/
theorem of_not_needsQuotes (h : needsQuotes w = false) :
    w ≠ [] ∧ ∀ c ∈ w, c ≠ '"' ∧ isBlank c = false := by
  simp only [needsQuotes, Bool.or_eq_false_iff, List.isEmpty_eq_false_iff, List.any_eq_false,
    Bool.or_eq_true, beq_iff_eq, not_or] at h
  refine ⟨h.1, fun c hc => ?_⟩
  obtain ⟨⟨h1, h2⟩, h3⟩ := h.2 c hc
  exact ⟨h3, by simp [isBlank, h1, h2]⟩

/-- **A harmless argument comes back.** -/
theorem splitFrom_quoteWindowsArg (hr : Delimited rest) (h : Harmless w) :
    splitFrom none (' ' :: (quoteWindowsArg w ++ rest)) = w :: splitFrom none rest := by
  rw [splitFrom_blank rfl, quoteWindowsArg]
  by_cases hq : needsQuotes w = true
  · have hloss : slashLoss 0 w = 0 := by
      rw [slashLoss_eq_zero_iff]
      exact ⟨fun h => absurd rfl h, h hq⟩
    rw [if_pos hq, List.cons_append, splitFrom_none_cons rfl,
      splitFrom_some_cons (by simp [isBlank]), Reading.step_even rfl, List.append_assoc,
      List.singleton_append]
    refine (splitFrom_escapeQuotes rest (t := []) hloss).trans ?_
    rw [splitFrom_delimited rfl hr]
    simp [Reading.finish]
  · obtain ⟨hne, hw⟩ := of_not_needsQuotes (Bool.eq_false_iff.mpr hq)
    obtain ⟨c, cs, rfl⟩ := List.exists_cons_of_ne_nil hne
    rw [if_neg hq, List.cons_append, splitFrom_none_cons (hw c List.mem_cons_self).2,
      ← List.cons_append, splitFrom_plain hr rfl hw]
    rfl

/-- The name of the program comes back, whatever backslashes it has. -/
theorem splitProgram_quoteWindowsArg (hr : Delimited rest) (hn : '"' ∉ name) :
    splitProgram false (quoteWindowsArg name ++ rest) = (name, rest) := by
  have hn' : ∀ c ∈ name, c ≠ '"' := by
    rintro c hc rfl
    exact hn hc
  rw [quoteWindowsArg]
  by_cases hq : needsQuotes name = true
  · have hesc : escapeQuotes name = name := by
      rw [escapeQuotes, List.flatMap_congr fun c hc => if_neg (hn' c hc), List.flatMap_singleton']
    rw [if_pos hq, hesc, List.cons_append, List.append_assoc, List.singleton_append, splitProgram,
      if_pos rfl]
    exact splitProgram_quoted hr hn'
  · rw [if_neg hq]
    exact splitProgram_plain hr (of_not_needsQuotes (Bool.eq_false_iff.mpr hq)).2

/-- **What an argument loses** in weight. -/
theorem gain_quoteWindowsArg (hr : Delimited rest) :
    gain 0 (' ' :: (quoteWindowsArg w ++ rest)) + argLoss w = weight w + gain 0 rest := by
  have hspace : ∀ cs, gain 0 (' ' :: cs) = gain 0 cs := by
    intro cs
    rw [gain, if_neg (by decide), if_neg (by decide), Nat.mul_zero, Nat.zero_add]
  rw [hspace, quoteWindowsArg, argLoss]
  by_cases hq : needsQuotes w = true
  · have hgain := gain_escapeQuotes rest 0 w
    rw [if_pos hq, if_pos hq, List.cons_append, List.append_assoc, List.singleton_append, gain,
      if_neg (by decide), if_pos rfl]
    omega
  · -- the arguments that come out have this weight
    have hw := of_not_needsQuotes (Bool.eq_false_iff.mpr hq)
    have hsplit := congrArg (fun l => (l.map weight).sum)
      (splitFrom_plain hr (s := .start) rfl hw.2)
    simp only [sum_weight_splitFrom, List.map_cons, List.sum_cons] at hsplit
    rw [if_neg hq, if_neg hq]
    simpa [heldWeight, heldSlashes, Reading.start, Reading.finish, weight_nil] using hsplit

/-! ### The whole line -/

/-- What stands behind the name. -/
theorem delimited_args (args : List (List Char)) :
    Delimited (args.flatMap fun arg => ' ' :: quoteWindowsArg arg) := by
  cases args with
  | nil => exact delimited_nil
  | cons w args => exact delimited_space _

theorem splitFrom_args (h : ∀ w ∈ args, Harmless w) :
    splitFrom none (args.flatMap fun arg => ' ' :: quoteWindowsArg arg) = args := by
  induction args with
  | nil => rfl
  | cons w args ih =>
    rw [List.flatMap_cons, List.cons_append,
      splitFrom_quoteWindowsArg (delimited_args args) (h w List.mem_cons_self),
      ih fun v hv => h v (List.mem_cons_of_mem w hv)]

/-- The losses add up, whatever the splitting makes of the line. -/
theorem gain_args (args : List (List Char)) :
    gain 0 (args.flatMap fun arg => ' ' :: quoteWindowsArg arg) + (args.map argLoss).sum =
      (args.map weight).sum := by
  induction args with
  | nil => rfl
  | cons w args ih =>
    have hw := gain_quoteWindowsArg (w := w) (delimited_args args)
    rw [List.flatMap_cons, List.cons_append, List.map_cons, List.map_cons, List.sum_cons,
      List.sum_cons]
    omega

/-- **Which arguments come back**: those that get no quotes, and of the others those without a
backslash directly before a quote or at the end. -/
theorem splitCommandLine_build_iff (hn : '"' ∉ name) (args : List (List Char)) :
    splitCommandLine (buildWindowsCommandLine name args) = name :: args ↔
      ∀ w ∈ args, Harmless w := by
  rw [splitCommandLine, buildWindowsCommandLine,
    splitProgram_quoteWindowsArg (delimited_args args) hn]
  constructor
  · intro h w hw
    have htail := List.tail_eq_of_cons_eq h
    have hsum := sum_weight_splitFrom none (args.flatMap fun arg => ' ' :: quoteWindowsArg arg)
    rw [htail] at hsum
    have hzero : (args.map argLoss).sum = 0 := by
      have := gain_args args
      simp only [heldWeight, heldSlashes] at hsum
      omega
    rw [← argLoss_eq_zero_iff]
    exact List.sum_eq_zero_iff_forall_eq_nat.mp hzero _ (List.mem_map_of_mem hw)
  · intro h
    rw [splitFrom_args h]

/-- A path with a blank comes back if it does not end with a backslash. -/
theorem splitCommandLine_build_path :
    splitCommandLine (buildWindowsCommandLine "app.exe".toList
      ["C:\\Program Files\\x".toList, "-n".toList]) =
        ["app.exe".toList, "C:\\Program Files\\x".toList, "-n".toList] :=
  (splitCommandLine_build_iff (by decide) _).mpr (by decide +kernel)

/-- **A directory with a blank**, written with its last backslash, takes the next argument with
it. -/
theorem not_splitCommandLine_build :
    ¬∀ (name : List Char) (args : List (List Char)), '"' ∉ name →
      splitCommandLine (buildWindowsCommandLine name args) = name :: args := by
  intro h
  exact absurd (h "app.exe".toList ["C:\\Program Files\\".toList, "-n".toList] (by decide))
    (by decide +kernel)

end Wie
