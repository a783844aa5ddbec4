import Mathlib.Data.List.Perm.Basic
import Mathlib.Data.List.Pairwise
import Mathlib.Data.List.AList
import Mathlib.Logic.Function.Basic
import Mathlib.Tactic.Common

/-!
# Blocks of an address range

A list of blocks of which no two have an address in common. Nothing is asked of the order, so an
allocator may keep its blocks wherever it likes: what it does to them is a permutation, after which
one block is added, dropped, cut short or cut in two.

## Main definitions

* `MemBlock` — a start and a size
* `MemBlock.Apart` — two blocks without a common address
* `swapRemove` — take an element out of a list and put the last one in its place

## Main results

* `MemBlock.pairwise_perm`, `MemBlock.pairwise_cons` — the list under permutation and growth
* `MemBlock.pairwise_shrink`, `MemBlock.pairwise_cut` — one block cut short, or cut in two
* `perm_swapRemove`, `perm_flatMap_update`, `perm_entries_insert`, `perm_entries_erase` — what the
  containers of an allocator do to the list of all blocks
-/

namespace Wie

/-- A block of addresses. -/
structure MemBlock where
  /-- First address. -/
  address : ℕ
  /-- Number of addresses. -/
  size : ℕ
deriving DecidableEq

namespace MemBlock

/-- Two blocks have no address in common. -/
def Apart (b c : MemBlock) : Prop := b.address + b.size ≤ c.address ∨ c.address + c.size ≤ b.address

variable {l l' : List MemBlock} {b c d : MemBlock}

theorem Apart.symm (h : Apart b c) : Apart c b := Or.symm h

instance : Std.Symm Apart := ⟨fun _ _ h => h.symm⟩

theorem pairwise_perm (h : l.Pairwise Apart) (hp : l.Perm l') : l'.Pairwise Apart :=
  hp.pairwise h Apart.symm

theorem pairwise_cons : (b :: l).Pairwise Apart ↔ (∀ c ∈ l, Apart b c) ∧ l.Pairwise Apart :=
  List.pairwise_cons

/-- A block that shrinks stays apart from the others. -/
theorem Apart.mono (h : Apart b d) (hlo : b.address ≤ c.address)
    (hhi : c.address + c.size ≤ b.address + b.size) : Apart c d := by
  rcases h with h | h
  · exact .inl (le_trans hhi h)
  · exact .inr (le_trans h hlo)

/-- **A block cut short.** -/
theorem pairwise_shrink (h : (b :: l).Pairwise Apart) (hlo : b.address ≤ c.address)
    (hhi : c.address + c.size ≤ b.address + b.size) : (c :: l).Pairwise Apart := by
  rw [pairwise_cons] at h ⊢
  exact ⟨fun d hd => (h.1 d hd).mono hlo hhi, h.2⟩

/-- **A block cut in two.** -/
theorem pairwise_cut (h : (b :: l).Pairwise Apart) (hlo : b.address ≤ c.address)
    (hmid : c.address + c.size ≤ d.address) (hhi : d.address + d.size ≤ b.address + b.size) :
    (c :: d :: l).Pairwise Apart := by
  have hc : c.address + c.size ≤ b.address + b.size := by omega
  have hd : b.address ≤ d.address := by omega
  rw [pairwise_cons] at h ⊢
  refine ⟨fun e he => ?_, pairwise_cons.mpr ⟨fun e he => (h.1 e he).mono hd hhi, h.2⟩⟩
  rcases List.mem_cons.mp he with rfl | he
  · exact .inl hmid
  · exact (h.1 e he).mono hlo hc

end MemBlock

section containers

variable {α β : Type}

/-- `Vec::swap_remove`. -/
def swapRemove (l : List α) (i : ℕ) : List α :=
  match l.getLast? with
  | some x => (l.set i x).dropLast
  | none => []

theorem perm_swapRemove {l : List α} {i : ℕ} {a : α} (h : l[i]? = some a) :
    l.Perm (a :: swapRemove l i) := by
  rcases List.eq_nil_or_concat l with rfl | ⟨l, x, rfl⟩
  · cases h
  · rw [List.concat_eq_append] at h ⊢
    have hswap : swapRemove (l ++ [x]) i = ((l ++ [x]).set i x).dropLast := by
      rw [swapRemove, List.getLast?_append]
      rfl
    obtain ⟨hlt, hget⟩ := List.getElem?_eq_some_iff.mp h
    rw [hswap]
    by_cases hi : i < l.length
    · rw [List.set_append_left _ _ hi, List.dropLast_concat]
      have ha : l[i] = a := by rwa [List.getElem_append_left hi] at hget
      -- the hole takes the last element
      have h1 := (List.set_perm_cons_eraseIdx hi x).symm
      have h2 := (List.getElem_cons_eraseIdx_perm hi).symm
      rw [ha] at h2
      exact (List.perm_append_singleton x l).trans
        ((h2.cons x).trans ((List.Perm.swap a x _).trans (h1.cons a)))
    · have hi' : i = l.length := by
        rw [List.length_append, List.length_singleton] at hlt
        omega
      subst hi'
      have ha : x = a := by simpa using hget
      rw [List.set_append_right _ _ le_rfl, Nat.sub_self, List.set_cons_zero,
        List.dropLast_concat, ← ha]
      exact List.perm_append_singleton x l

/-- One more element in one of several lists. -/
theorem perm_flatMap_update [DecidableEq α] {f : α → List β} {a : α} {l : List α}
    (hl : l.Nodup) (ha : a ∈ l) (b : β) :
    (l.flatMap (Function.update f a (b :: f a))).Perm (b :: l.flatMap f) := by
  induction l with
  | nil => cases ha
  | cons c l ih =>
    rw [List.nodup_cons] at hl
    rw [List.flatMap_cons, List.flatMap_cons]
    rcases List.mem_cons.mp ha with rfl | ha
    · have hrest : l.flatMap (Function.update f a (b :: f a)) = l.flatMap f :=
        List.flatMap_congr fun c hc => Function.update_of_ne (fun h : c = a => hl.1 (h ▸ hc)) ..
      rw [Function.update_self, hrest]
      exact List.Perm.refl _
    · have hca : c ≠ a := fun h => hl.1 (h ▸ ha)
      rw [Function.update_of_ne hca]
      exact ((ih hl.2 ha).append_left (f c)).trans List.perm_middle

variable [DecidableEq α] {m : AList fun _ : α => β} {a : α} {b : β}

theorem perm_entries_insert (h : a ∉ m) (b : β) :
    (m.insert a b).entries.Perm (⟨a, b⟩ :: m.entries) := by
  rw [AList.entries_insert_of_notMem h]

theorem perm_entries_erase (h : m.lookup a = some b) :
    m.entries.Perm (⟨a, b⟩ :: (m.erase a).entries) := by
  have hmem : (⟨a, b⟩ : Sigma fun _ : α => β) ∈ m.entries := AList.mem_lookup_iff.mp h
  obtain ⟨b', l₁, l₂, hnot, heq, herase⟩ :=
    List.exists_of_kerase (List.mem_keys_of_mem hmem)
  have hb : b' = b := by
    have hmem' : (⟨a, b'⟩ : Sigma fun _ : α => β) ∈ m.entries := by
      rw [heq]
      exact List.mem_append_right _ List.mem_cons_self
    exact m.nodupKeys.eq_of_mk_mem hmem' hmem
  show m.entries.Perm (⟨a, b⟩ :: m.entries.kerase a)
  rw [herase, heq, hb]
  exact List.perm_middle

end containers

end Wie
