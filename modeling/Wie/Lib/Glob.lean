import Mathlib.Data.List.Forall2
import Mathlib.Data.List.Infix
import Mathlib.Tactic.Common

/-!
# Patterns with wildcards

A pattern is a list in which two symbols have a meaning of their own: `star` stands for any part of
a text, and `any` for one symbol. The text may use these two symbols as well, and there they are
symbols like others.

A matcher that compares a symbol of the pattern with the text before it asks whether the symbol is
the star takes a star of the pattern for a star of the text wherever the two meet. What such a
matcher finds are the splits in which a star that meets a star stands for that one symbol. They have
a recursive form, and in that form it is enough to look for the next star from where the last one
was met: what matches further on also matches from there.

## Main definitions

* `Wildcards` — the two symbols
* `IsSplit` — a text split along a pattern
* `StarsMet` — stars that meet a star stand for it alone
* `Eager` — the splits with `StarsMet`, by recursion on the pattern

## Main results

* `eager_iff` — `Eager` says that there is a split with `StarsMet`
* `Eager.of_suffix` — what is matched further on is matched, after a symbol, further on
-/

namespace Wie

variable {α : Type}

/-- The symbols with a meaning of their own. -/
structure Wildcards (α : Type) where
  /-- Stands for any part of a text. -/
  star : α
  /-- Stands for one symbol. -/
  any : α
  /-- The two are not the same. -/
  any_ne_star : any ≠ star

namespace Wildcards

variable (k : Wildcards α) {p c : α} {ps pat s t w : List α} {ws : List (List α)}

/-- The part `w` of a text is one that the symbol `p` of a pattern stands for. -/
def Piece (p : α) (w : List α) : Prop := p = k.star ∨ p = k.any ∧ w.length = 1 ∨ w = [p]

/-- The parts `ws` make up the text, and each is one that the pattern has in its place. -/
structure IsSplit (pat text : List α) (ws : List (List α)) : Prop where
  /-- Symbol by symbol. -/
  pieces : List.Forall₂ k.Piece pat ws
  /-- In order. -/
  flatten : ws.flatten = text

/-- Where a star of the pattern meets a star of the text, it stands for that symbol alone. -/
def StarsMet (pat : List α) (ws : List (List α)) : Prop :=
  ∀ i, pat[i]? = some k.star → (ws.drop i).flatten.head? = some k.star → ws[i]? = some [k.star]

/-- A split with `StarsMet`. -/
def Eager : List α → List α → Prop
  | [], t => t = []
  | p :: ps, t =>
    (p = k.star ∧ t.head? ≠ some k.star ∧ ∃ s, s <:+ t ∧ Eager ps s) ∨
      ∃ c s, t = c :: s ∧ (p = k.any ∨ p = c) ∧ Eager ps s

variable {k}

/-! ### Splits by recursion -/

@[simp] theorem eager_nil : k.Eager [] t ↔ t = [] := Iff.rfl

@[simp] theorem isSplit_nil : k.IsSplit [] t ws ↔ ws = [] ∧ t = [] := by
  constructor
  · rintro ⟨hp, rfl⟩
    simp [List.forall₂_nil_left_iff.mp hp]
  · rintro ⟨rfl, rfl⟩
    exact ⟨.nil, rfl⟩

theorem isSplit_cons :
    k.IsSplit (p :: ps) t (w :: ws) ↔ k.Piece p w ∧ ∃ s, t = w ++ s ∧ k.IsSplit ps s ws := by
  constructor
  · rintro ⟨hp, rfl⟩
    obtain ⟨hw, hws⟩ := List.forall₂_cons.mp hp
    exact ⟨hw, ws.flatten, rfl, hws, rfl⟩
  · rintro ⟨hw, s, rfl, hws, rfl⟩
    exact ⟨.cons hw hws, rfl⟩

theorem starsMet_cons :
    k.StarsMet (p :: ps) (w :: ws) ↔
      (p = k.star → (w ++ ws.flatten).head? = some k.star → w = [k.star]) ∧ k.StarsMet ps ws := by
  constructor
  · intro h
    exact ⟨fun hp hh => by simpa using h 0 (by simp [hp]) (by simpa using hh),
      fun i hi hh => by simpa using h (i + 1) (by simpa using hi) (by simpa using hh)⟩
  · rintro ⟨h0, hs⟩ i hi hh
    cases i with
    | zero => simpa using h0 (by simpa using hi) (by simpa using hh)
    | succ i => simpa using hs i (by simpa using hi) (by simpa using hh)

/-- The part a symbol stands for, where a star that meets a star stands for it alone. -/
theorem piece_met_iff :
    (k.Piece p w ∧ (p = k.star → (w ++ s).head? = some k.star → w = [k.star])) ↔
      (p = k.star ∧ (w ++ s).head? ≠ some k.star) ∨ ∃ c, w = [c] ∧ (p = k.any ∨ p = c) := by
  constructor
  · rintro ⟨hw, hm⟩
    by_cases hs : p = k.star ∧ (w ++ s).head? ≠ some k.star
    · exact .inl hs
    · refine .inr ?_
      rcases hw with hp | ⟨hp, hl⟩ | rfl
      · have hh : (w ++ s).head? = some k.star := not_not.mp fun hh => hs ⟨hp, hh⟩
        exact ⟨k.star, hm hp hh, .inr hp⟩
      · obtain ⟨c, rfl⟩ := List.length_eq_one_iff.mp hl
        exact ⟨c, rfl, .inl hp⟩
      · exact ⟨p, rfl, .inr rfl⟩
  · rintro (⟨hp, hh⟩ | ⟨c, rfl, hp | rfl⟩)
    · exact ⟨.inl hp, fun _ h => absurd h hh⟩
    · exact ⟨.inr (.inl ⟨hp, rfl⟩), fun h => absurd (hp.symm.trans h) k.any_ne_star⟩
    · exact ⟨.inr (.inr rfl), fun h _ => by rw [h]⟩

theorem eager_iff : k.Eager pat t ↔ ∃ ws, k.IsSplit pat t ws ∧ k.StarsMet pat ws := by
  induction pat generalizing t with
  | nil => simp [StarsMet]
  | cons p ps ih =>
    constructor
    · rintro (⟨hp, hh, s, ⟨w, rfl⟩, hs⟩ | ⟨c, s, rfl, hp, hs⟩)
      · obtain ⟨ws, hsplit, hmet⟩ := ih.mp hs
        obtain ⟨hw, hm⟩ := piece_met_iff.mpr (.inl ⟨hp, hh⟩)
        exact ⟨w :: ws, isSplit_cons.mpr ⟨hw, s, rfl, hsplit⟩,
          starsMet_cons.mpr ⟨by rwa [hsplit.flatten], hmet⟩⟩
      · obtain ⟨ws, hsplit, hmet⟩ := ih.mp hs
        obtain ⟨hw, hm⟩ := piece_met_iff (s := s).mpr (.inr ⟨c, rfl, hp⟩)
        exact ⟨[c] :: ws, isSplit_cons.mpr ⟨hw, s, rfl, hsplit⟩,
          starsMet_cons.mpr ⟨by rwa [hsplit.flatten], hmet⟩⟩
    · rintro ⟨ws, hsplit, hmet⟩
      obtain ⟨w, ws, -, -, rfl⟩ := List.forall₂_cons_left_iff.mp hsplit.pieces
      obtain ⟨hw, s, rfl, hrest⟩ := isSplit_cons.mp hsplit
      obtain ⟨hm, hmet'⟩ := starsMet_cons.mp hmet
      rw [hrest.flatten] at hm
      have hs : k.Eager ps s := ih.mpr ⟨ws, hrest, hmet'⟩
      rcases piece_met_iff.mp ⟨hw, hm⟩ with ⟨hp, hh⟩ | ⟨c, rfl, hp⟩
      · exact .inl ⟨hp, hh, s, ⟨w, rfl⟩, hs⟩
      · exact .inr ⟨c, s, rfl, hp, hs⟩

/-- A text without stars has no stars to meet. -/
theorem IsSplit.starsMet_of_notMem (h : k.IsSplit pat t ws) (ht : k.star ∉ t) :
    k.StarsMet pat ws := by
  intro i _ hh
  refine absurd ?_ ht
  rw [← h.flatten, ← List.take_append_drop i ws, List.flatten_append]
  exact List.mem_append_right _ (List.mem_of_mem_head? hh)

/-! ### Single symbols -/

theorem eager_cons_cons (h : p = k.any ∨ p = c) : k.Eager (p :: ps) (c :: t) ↔ k.Eager ps t := by
  constructor
  · rintro (⟨hp, hh, -⟩ | ⟨_, _, ht, -, hs⟩)
    · rcases h with h | h
      · exact absurd (h.symm.trans hp) k.any_ne_star
      · exact absurd (by simp [← h, hp]) hh
    · obtain ⟨-, rfl⟩ := List.cons.injEq .. ▸ ht
      exact hs
  · intro hs
    exact .inr ⟨c, t, rfl, h, hs⟩

theorem not_eager_cons_cons (hs : p ≠ k.star) (ha : p ≠ k.any) (hc : p ≠ c) :
    ¬ k.Eager (p :: ps) (c :: t) := by
  rintro (⟨hp, -⟩ | ⟨_, _, ht, hp | hp, -⟩)
  · exact hs hp
  · exact ha hp
  · obtain ⟨rfl, -⟩ := List.cons.injEq .. ▸ ht
    exact hc hp

theorem eager_star_cons (hc : k.star ≠ c) :
    k.Eager (k.star :: ps) (c :: t) ↔ ∃ s, s <:+ c :: t ∧ k.Eager ps s := by
  constructor
  · rintro (⟨-, -, h⟩ | ⟨_, _, ht, hp | hp, -⟩)
    · exact h
    · exact absurd hp.symm k.any_ne_star
    · obtain ⟨rfl, -⟩ := List.cons.injEq .. ▸ ht
      exact absurd hp hc
  · intro h
    exact .inl ⟨rfl, by simpa using hc.symm, h⟩

/-- Nothing is left of the text: what is left of the pattern are stars. -/
theorem eager_cons_nil : k.Eager (p :: ps) [] ↔ p = k.star ∧ k.Eager ps [] := by
  constructor
  · rintro (⟨hp, -, s, hs, h⟩ | ⟨_, _, ht, -⟩)
    · rw [List.suffix_nil.mp hs] at h
      exact ⟨hp, h⟩
    · exact absurd ht.symm (List.cons_ne_nil _ _)
  · rintro ⟨hp, h⟩
    exact .inl ⟨hp, by simp, [], List.suffix_rfl, h⟩

/-! ### Further on -/

/-- Whatever a pattern matches, its tail matches some way into it. -/
theorem Eager.tail (h : k.Eager (p :: ps) s) : ∃ s', s' <:+ s ∧ k.Eager ps s' := by
  rcases h with ⟨-, -, h⟩ | ⟨c, s', rfl, -, h⟩
  · exact h
  · exact ⟨s', List.suffix_cons c s', h⟩

/-- Where a symbol of the pattern agrees with the text, a match of the pattern there or further on
leaves a match of its tail from the next symbol of the text on. -/
theorem Eager.of_suffix (h : k.Eager (p :: ps) s) (hs : s <:+ c :: t) (hp : p = k.any ∨ p = c) :
    ∃ s', s' <:+ t ∧ k.Eager ps s' := by
  rcases List.suffix_cons_iff.mp hs with rfl | hs
  · exact ⟨t, List.suffix_rfl, (eager_cons_cons hp).mp h⟩
  · obtain ⟨s', hs', h'⟩ := h.tail
    exact ⟨s', hs'.trans hs, h'⟩

end Wildcards

end Wie
