import Mathlib.Data.List.GetD
import Wie.Lib.Glob
import Wie.Lib.Text

/-!
# File masks

`wildcard_match` decides which entries a search like `FindFirstFileW` reports. It looks for the
mask in the name from left to right and remembers the last star, to go on one character further
when the mask does not fit.

A star of the mask is compared with the name first, as every other character is. In a name with
stars it is so taken for one of them.

## Main definitions

* `matchGlob`, `wildcardMatch` — the functions of the source
* `WILDCARDS` — the star and the question mark

## Main results

* `matchGlob_iff` — the masks that are found are those with a split in which a star that meets a
  star stands for it alone
* `wildcardMatch_right_iff` — `wildcardMatch` is right exactly where such a split exists or none at
  all
-/

namespace Wie

/-- The variables of the loop of `match_glob`. -/
structure GlobCursor where
  /-- Index into the mask. -/
  pi : ℕ
  /-- Index into the name. -/
  ti : ℕ
  /-- Where the last star of the mask is. -/
  starPi : Option ℕ
  /-- Where in the name the part begins that it does not stand for. -/
  starTi : ℕ
  /-- The name is read from there on. -/
  starTi_le : starTi ≤ ti

/-- The loop over the name: the index into the mask at its end, if it comes to one. -/
def matchGlob.scan (pat text : List Char) (g : GlobCursor) : Option ℕ :=
  if _ : g.ti < text.length then
    if pat[g.pi]?.any fun p => p = '?' || some p = text[g.ti]? then
      scan pat text ⟨g.pi + 1, g.ti + 1, g.starPi, g.starTi, Nat.le_succ_of_le g.starTi_le⟩
    else if _ : pat[g.pi]? = some '*' then
      scan pat text ⟨g.pi + 1, g.ti, some g.pi, g.ti, le_rfl⟩
    else
      match g.starPi with
      | some sp => scan pat text ⟨sp + 1, g.starTi + 1, some sp, g.starTi + 1, le_rfl⟩
      | none => none
  else some g.pi
termination_by (text.length - g.starTi, text.length - g.ti, pat.length - g.pi)
decreasing_by
  · rw [Prod.lex_def, Prod.lex_def]
    dsimp only
    omega
  · rename_i hp
    obtain ⟨hpi, -⟩ := List.getElem?_eq_some_iff.mp hp
    have := g.starTi_le
    rw [Prod.lex_def, Prod.lex_def]
    dsimp only
    omega
  · have := g.starTi_le
    rw [Prod.lex_def]
    omega

/-- The loop over the stars at the end of the mask. -/
def matchGlob.skipStars (pat : List Char) (pi : ℕ) : ℕ :=
  if _ : pat[pi]? = some '*' then skipStars pat (pi + 1) else pi
termination_by pat.length - pi
decreasing_by
  rename_i hp
  obtain ⟨hpi, -⟩ := List.getElem?_eq_some_iff.mp hp
  omega

/-- `match_glob`. -/
def matchGlob (pat text : List Char) : Bool :=
  match matchGlob.scan pat text ⟨0, 0, none, 0, le_rfl⟩ with
  | some pi => matchGlob.skipStars pat pi = pat.length
  | none => false

/-- `wildcard_match`. -/
def wildcardMatch (pattern name : List Char) : Bool :=
  matchGlob (toAsciiLowercase pattern) (toAsciiLowercase name)

/-- The star and the question mark. -/
def WILDCARDS : Wildcards Char := ⟨'*', '?', by decide⟩

@[simp] theorem star_WILDCARDS : WILDCARDS.star = '*' := rfl

@[simp] theorem any_WILDCARDS : WILDCARDS.any = '?' := rfl

namespace matchGlob

variable {pat text : List Char} {g : GlobCursor}

theorem drop_of_getElem? {l : List Char} {i : ℕ} {c : Char} (h : l[i]? = some c) :
    l.drop i = c :: l.drop (i + 1) := by
  obtain ⟨hi, rfl⟩ := List.getElem?_eq_some_iff.mp h
  exact List.drop_eq_getElem_cons hi

/-- What is left of the mask are stars exactly where it matches nothing. -/
theorem skipStars_eq_length_iff (pi : ℕ) (hpi : pi ≤ pat.length) :
    skipStars pat pi = pat.length ↔ WILDCARDS.Eager (pat.drop pi) [] := by
  fun_induction skipStars pat pi with
  | case1 pi h ih =>
    obtain ⟨hlt, -⟩ := List.getElem?_eq_some_iff.mp h
    rw [ih hlt, drop_of_getElem? h, Wildcards.eager_cons_nil]
    exact ⟨fun h => ⟨rfl, h⟩, And.right⟩
  | case2 pi h =>
    rcases hpi.lt_or_eq with hlt | rfl
    · have hp : pat[pi]? = some pat[pi] := List.getElem?_eq_getElem hlt
      rw [drop_of_getElem? hp, Wildcards.eager_cons_nil]
      exact iff_of_false hlt.ne fun hs => h (hp.trans (congrArg some hs.1))
    · simp

/-- The mask from the cursor on matches the name from the cursor on. -/
def Here (pat text : List Char) (g : GlobCursor) : Prop :=
  WILDCARDS.Eager (pat.drop g.pi) (text.drop g.ti)

/-- The mask after the last star matches the name further on than where it was last tried. -/
def Later (pat text : List Char) (g : GlobCursor) : Prop :=
  ∃ sp, g.starPi = some sp ∧
    ∃ s, s <:+ text.drop (g.starTi + 1) ∧ WILDCARDS.Eager (pat.drop (sp + 1)) s

/-- Whatever the mask after the last star matches leads to a match from the cursor on. -/
structure Inv (pat text : List Char) (g : GlobCursor) : Prop where
  /-- The cursor is in the mask or at its end. -/
  pi_le : g.pi ≤ pat.length
  /-- The last star is in the mask. -/
  starPi_lt : ∀ sp, g.starPi = some sp → sp < pat.length
  /-- From where the mask after it was last tried. -/
  ahead : ∀ sp, g.starPi = some sp → ∀ s, s <:+ text.drop g.starTi →
    WILDCARDS.Eager (pat.drop (sp + 1)) s →
      ∃ s', s' <:+ text.drop g.ti ∧ WILDCARDS.Eager (pat.drop g.pi) s'

/-- A match further on is one from the cursor on. -/
theorem Inv.of_later (h : Inv pat text g) (hl : Later pat text g) :
    ∃ s, s <:+ text.drop g.ti ∧ WILDCARDS.Eager (pat.drop g.pi) s := by
  obtain ⟨sp, hsp, s, hs, he⟩ := hl
  refine h.ahead sp hsp s (hs.trans ?_) he
  rw [← List.drop_drop]
  exact List.drop_suffix 1 _

/-- The mask from its `sp + 1` on is tried at one place after the other. -/
theorem exists_suffix_iff (pat l : List Char) :
    (∃ s, s <:+ l ∧ WILDCARDS.Eager pat s) ↔
      WILDCARDS.Eager pat l ∨ ∃ s, s <:+ l.tail ∧ WILDCARDS.Eager pat s := by
  constructor
  · rintro ⟨s, hs, he⟩
    cases l with
    | nil => exact .inr ⟨s, hs, he⟩
    | cons c l =>
      rcases List.suffix_cons_iff.mp hs with rfl | hs
      · exact .inl he
      · exact .inr ⟨s, hs, he⟩
  · rintro (he | ⟨s, hs, he⟩)
    · exact ⟨l, List.suffix_rfl, he⟩
    · exact ⟨s, hs.trans (List.tail_suffix l), he⟩

/-- Where the cursor moves on neither in the mask nor in the name, there is no match. -/
theorem not_here (hti : g.ti < text.length)
    (hany : ¬ (pat[g.pi]?.any fun p => p = '?' || some p = text[g.ti]?) = true)
    (hstar : pat[g.pi]? ≠ some '*') : ¬ Here pat text g := by
  have hc : text[g.ti]? = some text[g.ti] := List.getElem?_eq_getElem hti
  rw [Here, drop_of_getElem? hc]
  cases hp : pat[g.pi]? with
  | none => simp [List.drop_eq_nil_of_le (List.getElem?_eq_none_iff.mp hp), hti]
  | some p =>
    rw [drop_of_getElem? hp]
    simp only [hp, hc, Option.any_some, Bool.or_eq_true, decide_eq_true_eq, not_or] at hany
    exact Wildcards.not_eager_cons_cons (fun h => hstar (hp.trans (congrArg some h))) hany.1
      fun h => hany.2 (congrArg some h)

/-- The loop comes to an end, and what it finds is a match. -/
theorem scan_iff (h : Inv pat text g) :
    (∃ pi, scan pat text g = some pi ∧ skipStars pat pi = pat.length) ↔
      Here pat text g ∨ Later pat text g := by
  fun_induction scan pat text g with
  | case1 g hti hany ih =>
    -- the cursor moves on in the mask and in the name
    obtain ⟨p, hp, hpc⟩ := (Option.any_eq_true _ _).mp hany
    have hc : text[g.ti]? = some text[g.ti] := List.getElem?_eq_getElem hti
    have hpc' : p = WILDCARDS.any ∨ p = text[g.ti] := by
      simpa [hc] using hpc
    obtain ⟨hlt, -⟩ := List.getElem?_eq_some_iff.mp hp
    rw [ih ⟨hlt, h.starPi_lt, fun sp hsp s hs he => ?_⟩]
    · rw [Here, Here, drop_of_getElem? hp, drop_of_getElem? hc, Wildcards.eager_cons_cons hpc']
      rfl
    · obtain ⟨s', hs', he'⟩ := h.ahead sp hsp s hs he
      rw [drop_of_getElem? hp] at he'
      rw [drop_of_getElem? hc] at hs'
      exact he'.of_suffix hs' hpc'
  | case2 g hti hany hstar ih =>
    -- a star that does not meet one: what the star before it stands for does not matter any more
    have hc : text[g.ti]? = some text[g.ti] := List.getElem?_eq_getElem hti
    have hne : WILDCARDS.star ≠ text[g.ti] := by
      rintro heq
      exact hany (by simp [hstar, hc, ← heq])
    obtain ⟨hlt, -⟩ := List.getElem?_eq_some_iff.mp hstar
    rw [ih ⟨hlt, fun sp hsp => by rwa [← Option.some.inj hsp], fun sp hsp s hs he => ?_⟩]
    · have hhere : Here pat text g ↔
          ∃ s, s <:+ text.drop g.ti ∧ WILDCARDS.Eager (pat.drop (g.pi + 1)) s := by
        rw [Here, drop_of_getElem? hstar, drop_of_getElem? hc]
        exact Wildcards.eager_star_cons hne
      have hnew : Here pat text ⟨g.pi + 1, g.ti, some g.pi, g.ti, le_rfl⟩ ∨
          Later pat text ⟨g.pi + 1, g.ti, some g.pi, g.ti, le_rfl⟩ ↔ Here pat text g := by
        rw [hhere, exists_suffix_iff, List.tail_drop]
        simp [Here, Later]
      rw [hnew]
      refine ⟨.inl, fun hor => hor.elim id fun hl => ?_⟩
      obtain ⟨s, hs, he⟩ := h.of_later hl
      rw [drop_of_getElem? hstar] at he
      obtain ⟨s', hs', he'⟩ := he.tail
      exact hhere.mpr ⟨s', hs'.trans hs, he'⟩
    · rw [← Option.some.inj hsp] at he
      exact ⟨s, hs, he⟩
  | case3 g hti hany hstar sp hsp ih =>
    -- the mask after the last star is tried one character further
    have hlt : sp < pat.length := h.starPi_lt sp hsp
    rw [ih ⟨hlt, fun sp' hsp' => by rwa [← Option.some.inj hsp'], fun sp' hsp' s hs he => ?_⟩]
    · have hlater : Later pat text g ↔
          ∃ s, s <:+ text.drop (g.starTi + 1) ∧ WILDCARDS.Eager (pat.drop (sp + 1)) s := by
        simp [Later, hsp]
      rw [or_iff_right (not_here hti hany hstar), hlater, exists_suffix_iff, List.tail_drop]
      simp [Here, Later]
    · rw [← Option.some.inj hsp'] at he
      exact ⟨s, hs, he⟩
  | case4 g hti hany hstar hsp =>
    have hl : ¬ Later pat text g := by
      rintro ⟨sp, hsp', -⟩
      exact absurd (hsp.symm.trans hsp') (Option.some_ne_none sp).symm
    simp [hl, not_here hti hany hstar]
  | case5 g hti =>
    have hnil : text.drop g.ti = [] := List.drop_eq_nil_of_le (not_lt.mp hti)
    have hhere : Here pat text g ↔ skipStars pat g.pi = pat.length := by
      rw [skipStars_eq_length_iff g.pi h.pi_le, Here, hnil]
    rw [hhere]
    refine ⟨?_, fun hor => ?_⟩
    · rintro ⟨pi, hpi, hs⟩
      rw [← Option.some.inj hpi] at hs
      exact .inl hs
    · refine ⟨g.pi, rfl, hor.elim id fun hl => ?_⟩
      obtain ⟨s, hs, he⟩ := h.of_later hl
      rw [hnil, List.suffix_nil] at hs
      rw [← hhere, Here, hnil, ← hs]
      exact he

end matchGlob

/-- **What `match_glob` finds.** -/
theorem matchGlob_iff (pat text : List Char) :
    matchGlob pat text = true ↔
      ∃ ws, WILDCARDS.IsSplit pat text ws ∧ WILDCARDS.StarsMet pat ws := by
  have hinv : matchGlob.Inv pat text ⟨0, 0, none, 0, le_rfl⟩ :=
    ⟨Nat.zero_le _, fun _ h => absurd h.symm (Option.some_ne_none _),
      fun _ h => absurd h.symm (Option.some_ne_none _)⟩
  have hscan := matchGlob.scan_iff hinv
  rw [← Wildcards.eager_iff]
  have hl : ¬ matchGlob.Later pat text ⟨0, 0, none, 0, le_rfl⟩ := by
    rintro ⟨_, h, -⟩
    exact absurd h.symm (Option.some_ne_none _)
  rw [or_iff_left hl, matchGlob.Here, List.drop_zero, List.drop_zero] at hscan
  rw [matchGlob]
  split
  next pi hpi => simpa [hpi] using hscan
  next hnone => simpa [hnone] using hscan

/-- Whether a mask matches a name: without regard to case, each `*` stands for some part of the
name, each `?` for one character, and every other character for itself. -/
def MaskMatches (pattern name : List Char) : Prop :=
  ∃ ws, WILDCARDS.IsSplit (toAsciiLowercase pattern) (toAsciiLowercase name) ws

/-- `wildcardMatch` finds nothing that the mask does not match. -/
theorem MaskMatches.of_wildcardMatch {pattern name : List Char}
    (h : wildcardMatch pattern name = true) : MaskMatches pattern name := by
  obtain ⟨ws, hs, -⟩ := (matchGlob_iff _ _).mp h
  exact ⟨ws, hs⟩

/-- **Where `wildcardMatch` is right.** If the mask matches at all, then also in such a way that a
star that meets a star of the name stands for it alone. -/
theorem wildcardMatch_right_iff (pattern name : List Char) :
    (wildcardMatch pattern name = true ↔ MaskMatches pattern name) ↔
      (MaskMatches pattern name → ∃ ws,
        WILDCARDS.IsSplit (toAsciiLowercase pattern) (toAsciiLowercase name) ws ∧
          WILDCARDS.StarsMet (toAsciiLowercase pattern) ws) := by
  rw [← matchGlob_iff]
  exact ⟨Iff.mpr, fun h => ⟨MaskMatches.of_wildcardMatch, h⟩⟩

/-- The mask `*` does not find the name `*a`. -/
theorem not_wildcardMatch_star :
    ¬ (wildcardMatch ['*'] ['*', 'a'] = true ↔ MaskMatches ['*'] ['*', 'a']) := by
  have hfind : wildcardMatch ['*'] ['*', 'a'] = false := by
    rw [wildcardMatch, matchGlob, matchGlob.scan, matchGlob.scan]
    rfl
  have hmatch : MaskMatches ['*'] ['*', 'a'] :=
    ⟨[['*', 'a']], .cons (.inl rfl) .nil, rfl⟩
  simp [hfind, hmatch]

/-- In a name without stars it is right. -/
theorem wildcardMatch_iff_of_notMem {pattern name : List Char}
    (h : '*' ∉ toAsciiLowercase name) :
    wildcardMatch pattern name = true ↔ MaskMatches pattern name := by
  refine (matchGlob_iff _ _).trans ⟨fun ⟨ws, hs, _⟩ => ⟨ws, hs⟩, fun ⟨ws, hs⟩ => ⟨ws, hs, ?_⟩⟩
  exact hs.starsMet_of_notMem h

end Wie
