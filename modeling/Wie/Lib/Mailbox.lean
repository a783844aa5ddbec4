import Mathlib.Data.List.Perm.Basic
import Mathlib.Data.List.Sort
import Mathlib.Data.Option.Basic

/-!
# Mailboxes with selective receipt

Items are put at the end of a queue. A receiver names a filter and takes the first item that the
filter accepts, wherever it is. What such a mailbox owes to those who use it is stated over the
record of what was put in and what was taken: nothing is lost, nothing is taken twice, and an item
overtakes another only when the filter it was taken with did not accept the other one.

Items may be equal, so the statement numbers them in the order in which they were put in.

## Main definitions

* `Mail`, `itemsPosted`, `itemsTaken` — the record
* `Ledger` — which number was taken with which filter, and which numbers wait
* `Ledger.Accounts` — a ledger that accounts for a record and a queue

## Main results

* `Ledger.Accounts.post`, `Ledger.Accounts.take` — the two operations
* `Ledger.Accounts.conserved` — what was put in was taken or waits
* `Ledger.Accounts.sublist` — what waits does so in the order of arrival
-/

namespace Wie

variable {α φ : Type}

/-- An entry of the record: items of `α`, filters of `φ`. -/
inductive Mail (α φ : Type)
  /-- An item was put in. -/
  | posted (x : α)
  /-- An item was taken with a filter. -/
  | taken (f : φ) (x : α)
deriving DecidableEq

/-- The items put in, in order. -/
def itemsPosted (es : List (Mail α φ)) : List α :=
  es.filterMap fun e => match e with
    | .posted x => some x
    | .taken _ _ => none

/-- The items taken and the filters they were taken with, in order. -/
def itemsTaken (es : List (Mail α φ)) : List (φ × α) :=
  es.filterMap fun e => match e with
    | .posted _ => none
    | .taken f x => some (f, x)

@[simp] theorem itemsPosted_nil : itemsPosted ([] : List (Mail α φ)) = [] := rfl

@[simp] theorem itemsTaken_nil : itemsTaken ([] : List (Mail α φ)) = [] := rfl

@[simp] theorem itemsPosted_posted (es : List (Mail α φ)) (x : α) :
    itemsPosted (es ++ [.posted x]) = itemsPosted es ++ [x] := by
  simp [itemsPosted]

@[simp] theorem itemsPosted_taken (es : List (Mail α φ)) (f : φ) (x : α) :
    itemsPosted (es ++ [.taken f x]) = itemsPosted es := by
  simp [itemsPosted]

@[simp] theorem itemsTaken_posted (es : List (Mail α φ)) (x : α) :
    itemsTaken (es ++ [.posted x]) = itemsTaken es := by
  simp [itemsTaken]

@[simp] theorem itemsTaken_taken (es : List (Mail α φ)) (f : φ) (x : α) :
    itemsTaken (es ++ [.taken f x]) = itemsTaken es ++ [(f, x)] := by
  simp [itemsTaken]

/-- The first item that passes splits the queue. -/
theorem exists_split_of_findIdx? {p : α → Bool} {q : List α} {i : ℕ}
    (h : q.findIdx? p = some i) :
    ∃ l x r, q = l ++ x :: r ∧ q[i]? = some x ∧ q.eraseIdx i = l ++ r ∧ p x = true ∧
      ∀ y ∈ l, p y = false := by
  obtain ⟨hi, hp, hbefore⟩ := List.findIdx?_eq_some_iff_getElem.mp h
  refine ⟨q.take i, q[i], q.drop (i + 1), ?_, List.getElem?_eq_getElem hi,
    List.eraseIdx_eq_take_drop_succ q i, hp, ?_⟩
  · rw [List.getElem_cons_drop, List.take_append_drop]
  · intro y hy
    obtain ⟨j, hj, rfl⟩ := List.mem_take_iff_getElem.mp hy
    simpa using hbefore j (by omega)

/-- A ledger over the numbers of the items. -/
structure Ledger (φ : Type) where
  /-- What was taken, in order, and with which filter. -/
  out : List (ℕ × φ)
  /-- What waits, in the order of the queue. -/
  waiting : List ℕ

namespace Ledger

variable {accepts : φ → α → Bool} {es : List (Mail α φ)} {queue : List α} {L : Ledger φ}

/-- The ledger accounts for the record `es` and the queue. -/
structure Accounts (accepts : φ → α → Bool) (es : List (Mail α φ)) (queue : List α)
    (L : Ledger φ) : Prop where
  /-- Every number was taken once, or waits. -/
  perm : (L.out.map Prod.fst ++ L.waiting).Perm (List.range (itemsPosted es).length)
  /-- What waits does so in the order of arrival. -/
  sorted : L.waiting.Pairwise (· < ·)
  /-- The queue holds what waits. -/
  queue_eq : queue.map some = L.waiting.map fun i => (itemsPosted es)[i]?
  /-- What was taken is what was put in. -/
  taken_eq : (itemsTaken es).map some =
    L.out.map fun o => (itemsPosted es)[o.1]?.map fun x => (o.2, x)
  /-- It was accepted. -/
  accepted : ∀ t ∈ itemsTaken es, accepts t.1 t.2 = true
  /-- When it was taken, all earlier items that its filter accepts had been taken. -/
  first : ∀ k o, L.out[k]? = some o → ∀ j < o.1, ∀ x, (itemsPosted es)[j]? = some x →
    accepts o.2 x = true → j ∈ (L.out.take k).map Prod.fst

/-- Nothing was put in. -/
theorem accounts_nil : Accounts accepts ([] : List (Mail α φ)) [] ⟨[], []⟩ where
  perm := .refl _
  sorted := .nil
  queue_eq := rfl
  taken_eq := rfl
  accepted := by simp
  first := by simp

namespace Accounts

theorem mem_lt (h : Accounts accepts es queue L) {i : ℕ}
    (hi : i ∈ L.out.map Prod.fst ++ L.waiting) : i < (itemsPosted es).length :=
  List.mem_range.mp (h.perm.mem_iff.mp hi)

theorem out_lt (h : Accounts accepts es queue L) {o : ℕ × φ} (ho : o ∈ L.out) :
    o.1 < (itemsPosted es).length :=
  h.mem_lt (List.mem_append_left _ (List.mem_map_of_mem ho))

theorem waiting_lt (h : Accounts accepts es queue L) {i : ℕ} (hi : i ∈ L.waiting) :
    i < (itemsPosted es).length :=
  h.mem_lt (List.mem_append_right _ hi)

/-- **Put an item in.** -/
theorem post (h : Accounts accepts es queue L) (x : α) :
    Accounts accepts (es ++ [.posted x]) (queue ++ [x])
      ⟨L.out, L.waiting ++ [(itemsPosted es).length]⟩ where
  perm := by
    rw [itemsPosted_posted, List.length_append, List.length_singleton, List.range_succ,
      ← List.append_assoc]
    exact h.perm.append_right _
  sorted := by
    refine List.pairwise_append.mpr ⟨h.sorted, List.pairwise_singleton _ _, ?_⟩
    intro i hi j hj
    rw [List.mem_singleton.mp hj]
    exact h.waiting_lt hi
  queue_eq := by
    rw [itemsPosted_posted, List.map_append, List.map_append, h.queue_eq]
    refine congrArg₂ _ (List.map_congr_left fun i hi => ?_) (by simp)
    rw [List.getElem?_append_left (h.waiting_lt hi)]
  taken_eq := by
    rw [itemsPosted_posted, itemsTaken_posted, h.taken_eq]
    refine List.map_congr_left fun o ho => ?_
    rw [List.getElem?_append_left (h.out_lt ho)]
  accepted := by
    rw [itemsTaken_posted]
    exact h.accepted
  first := by
    intro k o hk j hj y hy
    rw [itemsPosted_posted, List.getElem?_append_left
      (hj.trans (h.out_lt (List.mem_of_getElem? hk)))] at hy
    exact h.first k o hk j hj y hy

/-- **Take the first item that is accepted.** -/
theorem take (h : Accounts accepts es queue L) {f : φ} {x : α} {l r : List α}
    (hqueue : queue = l ++ x :: r) (hx : accepts f x = true)
    (hl : ∀ y ∈ l, accepts f y = false) :
    ∃ L', Accounts accepts (es ++ [.taken f x]) (l ++ r) L' := by
  have hsplit := h.queue_eq
  rw [hqueue, List.map_append, List.map_cons] at hsplit
  obtain ⟨wl, ws, hw, hwl, hws⟩ := List.map_eq_append_iff.mp hsplit.symm
  obtain ⟨i, wr, rfl, hi, hwr⟩ := List.map_eq_cons_iff.mp hws
  have hsorted := h.sorted
  rw [hw, List.pairwise_append] at hsorted
  obtain ⟨hsl, hsr, hlr⟩ := hsorted
  refine ⟨⟨L.out ++ [(i, f)], wl ++ wr⟩, ?_, ?_, ?_, ?_, ?_, ?_⟩
  · rw [itemsPosted_taken]
    refine .trans ?_ h.perm
    simp only [hw, List.map_append, List.map_cons, List.map_nil, List.append_assoc,
      List.singleton_append]
    exact List.Perm.append_left _ List.perm_middle.symm
  · refine List.pairwise_append.mpr ⟨hsl, (List.pairwise_cons.mp hsr).2, ?_⟩
    exact fun a ha b hb => hlr a ha b (.tail _ hb)
  · rw [itemsPosted_taken, List.map_append, List.map_append, hwl, hwr]
  · rw [itemsPosted_taken, itemsTaken_taken, List.map_append, List.map_append, h.taken_eq]
    simp [hi]
  · intro t ht
    rw [itemsTaken_taken] at ht
    rcases List.mem_append.mp ht with ht | ht
    · exact h.accepted t ht
    · rw [List.mem_singleton.mp ht]
      exact hx
  · intro k o hk j hj y hy hacc
    rw [itemsPosted_taken] at hy
    by_cases hlast : k < L.out.length
    · rw [List.getElem?_append_left hlast] at hk
      rw [List.take_append_of_le_length hlast.le]
      exact h.first k o hk j hj y hy hacc
    · have hk' := (List.getElem?_eq_some_iff.mp hk).1
      rw [List.length_append, List.length_singleton] at hk'
      obtain rfl : k = L.out.length := by omega
      obtain rfl : (i, f) = o := by simpa using hk
      rw [List.take_left]
      have hmem : j ∈ L.out.map Prod.fst ++ L.waiting :=
        h.perm.mem_iff.mpr (List.mem_range.mpr (List.getElem?_eq_some_iff.mp hy).1)
      rcases List.mem_append.mp hmem with hout | hwait
      · exact hout
      · rw [hw] at hwait
        rcases List.mem_append.mp hwait with hjl | hjr
        · have hyl : some y ∈ l.map some := hwl ▸ hy ▸ List.mem_map_of_mem hjl
          obtain ⟨y', hy', hyy⟩ := List.mem_map.mp hyl
          rw [Option.some.inj hyy] at hy'
          exact absurd (hacc.symm.trans (hl y hy')) (by simp)
        · rcases List.mem_cons.mp hjr with rfl | hjr
          · exact absurd hj (lt_irrefl _)
          · exact absurd hj ((List.pairwise_cons.mp hsr).1 j hjr).asymm

/-- **What was put in was taken or waits.** -/
theorem conserved (h : Accounts accepts es queue L) :
    ((itemsTaken es).map Prod.snd ++ queue).Perm (itemsPosted es) := by
  have hsnd : ((itemsTaken es).map Prod.snd).map some =
      (L.out.map Prod.fst).map fun i => (itemsPosted es)[i]? := by
    calc ((itemsTaken es).map Prod.snd).map some
        = ((itemsTaken es).map some).map (Option.map Prod.snd) := by simp [Function.comp_def]
      _ = (L.out.map Prod.fst).map fun i => (itemsPosted es)[i]? := by
        rw [h.taken_eq]
        simp [Function.comp_def]
  have hall : (((itemsTaken es).map Prod.snd ++ queue).map some).Perm
      ((itemsPosted es).map some) := by
    rw [List.map_append, hsnd, h.queue_eq, ← List.map_append]
    refine (h.perm.map _).trans (.of_eq ?_)
    refine List.ext_getElem (by simp) fun n h1 h2 => ?_
    rw [List.length_map, List.length_range] at h1
    simp [List.getElem?_eq_getElem h1]
  exact (List.map_perm_map_iff (Option.some_injective α)).mp hall

/-- **What waits does so in the order of arrival.** -/
theorem sublist (h : Accounts accepts es queue L) : queue.Sublist (itemsPosted es) := by
  have hsub : L.waiting.Sublist (List.range (itemsPosted es).length) :=
    List.sublist_of_subperm_of_pairwise (r := (· < ·))
      ((List.sublist_append_right _ _).subperm.trans h.perm.subperm) h.sorted
      List.pairwise_lt_range
  have hmap := hsub.map fun i => (itemsPosted es)[i]?
  rw [← h.queue_eq] at hmap
  have hrange : ((List.range (itemsPosted es).length).map fun i => (itemsPosted es)[i]?) =
      (itemsPosted es).map some := by
    refine List.ext_getElem (by simp) fun n h1 h2 => ?_
    rw [List.length_map, List.length_range] at h1
    simp [List.getElem?_eq_getElem h1]
  rw [hrange] at hmap
  simpa using hmap.filterMap id

end Accounts

end Ledger

end Wie
