import Wie.Lib.Flat

/-!
# Linked lists in a memory

A list whose nodes are words of a memory: each word holds the address of the next one, the last one
zero. The first word is that of the head, which is no node itself. A memory in which the head and
the nodes hold the same words has the same list.

## Main definitions

* `Linked` — the nodes that a head leads to

## Main results

* `Linked.of_head` — the list moves with the word of its head
* `Linked.set_of_apart` — a write beside all words changes no list
* `Linked.push`, `Linked.pop` — one more node in front, and one less
-/

namespace Wie

/-- The word at `a` leads to the nodes of a list, and from the last of them nowhere. -/
def Linked (m : Flat) : ℕ → List ℕ → Prop
  | a, [] => m.get a 8 = 0
  | a, b :: l => m.get a 8 = b ∧ Linked m b l

namespace Linked

variable {m m' : Flat} {a b v : ℕ} {l : List ℕ}

/-- **Another head with the same word** in a memory with the same nodes. -/
theorem of_head (h : Linked m a l) (hhead : m'.get b 8 = m.get a 8)
    (hnodes : ∀ x ∈ l, m'.get x 8 = m.get x 8) : Linked m' b l := by
  induction l generalizing a b with
  | nil => exact hhead.trans h
  | cons c l ih =>
    refine ⟨hhead.trans h.1, ih h.2 ?_ fun x hx => hnodes x (List.mem_cons_of_mem _ hx)⟩
    exact hnodes c List.mem_cons_self

/-- **A write beside the words** of a list. -/
theorem set_of_apart (h : Linked m a l) (hhead : a + 8 ≤ b ∨ b + 8 ≤ a)
    (hnodes : ∀ x ∈ l, x + 8 ≤ b ∨ b + 8 ≤ x) (v : ℕ) : Linked (m.set b 8 v) a l :=
  h.of_head (Flat.get_set_of_disjoint hhead) fun x hx => Flat.get_set_of_disjoint (hnodes x hx)

/-- **One more node.** The node gets the word of the head, and the head the address of the node. -/
theorem push (h : Linked m a l) (hb : b < 2 ^ 64) (hab : a + 8 ≤ b ∨ b + 8 ≤ a)
    (hnodes : ∀ x ∈ l, (x + 8 ≤ b ∨ b + 8 ≤ x) ∧ (x + 8 ≤ a ∨ a + 8 ≤ x)) :
    Linked ((m.set b 8 (m.get a 8)).set a 8 b) a (b :: l) := by
  constructor
  · exact Flat.get_set_of_lt hb
  · have hword : ((m.set b 8 (m.get a 8)).set a 8 b).get b 8 = m.get a 8 := by
      rw [Flat.get_set_of_disjoint hab.symm, Flat.get_set_of_lt (Flat.get_lt m a 8)]
    refine h.of_head hword fun x hx => ?_
    rw [Flat.get_set_of_disjoint (hnodes x hx).2, Flat.get_set_of_disjoint (hnodes x hx).1]

/-- **One node less.** The head gets the word of the node. -/
theorem pop (h : Linked m a (b :: l)) (hnodes : ∀ x ∈ l, x + 8 ≤ a ∨ a + 8 ≤ x) :
    Linked (m.set a 8 (m.get b 8)) a l :=
  h.2.of_head (Flat.get_set_of_lt (Flat.get_lt m b 8)) fun x hx =>
    Flat.get_set_of_disjoint (hnodes x hx)

end Linked

end Wie
