import Wie.Eh.MsvcCatch

/-!
# Actions of unwinding

A function has a map that leads from each of its states to the one outside of it, with an action for
leaving the state. `collect_unwind_actions` goes along the map and collects the actions.

It goes through 64 states at most, so that a map that goes round in circles does not keep it for
ever; but a map of more than 64 states within each other is cut short too.

## Main definitions

* `collectUnwindActions`
* `HasUnwindMap`, `Chain` — a map in memory, and a way along it
* `actionsOf` — what must be collected

## Main results

* `collectLoop_eq` — what is collected: the actions of the first states
* `collectUnwindActions_complete_iff` — when nothing is missing
-/

namespace Wie

namespace MsvcEh

/-! ### The code -/

/-- `UnwindMapEntry`. -/
structure UnwindMapEntry where
  /-- The state outside. -/
  toState : ℤ
  /-- The action, zero for none. -/
  actionRva : ℕ
  deriving DecidableEq

section Code

variable (read : MemRead)

/-- `read_unwind_map_entry`. -/
def readUnwindMapEntry (imageBase unwindMapRva : ℕ) (state : ℤ) : Option UnwindMapEntry :=
  if state < 0 ∨ unwindMapRva = 0 then none
  else do
    let e := satAdd (satAdd imageBase unwindMapRva) (state.toNat * 8)
    let toState ← readI32 read e
    let actionRva ← readU32 read (e + 4)
    some ⟨toState, actionRva⟩

/-- The loop of `collect_unwind_actions`; the first number is how many rounds there are. -/
def collectLoop (imageBase unwindMapRva : ℕ) (maxState toState : ℤ) : ℕ → ℤ → List ℕ
  | 0, _ => []
  | rounds + 1, state =>
    if state < 0 ∨ state ≤ toState then []
    else if 0 < maxState ∧ maxState ≤ state then []
    else
      match readUnwindMapEntry read imageBase unwindMapRva state with
      | none => []
      | some entry =>
        (if entry.actionRva ≠ 0 then [entry.actionRva] else []) ++
          if state ≤ entry.toState then []
          else collectLoop imageBase unwindMapRva maxState toState rounds entry.toState

/-- `collect_unwind_actions`. -/
def collectUnwindActions (imageBase unwindMapRva : ℕ) (maxState fromState toState : ℤ) : List ℕ :=
  if unwindMapRva = 0 ∨ fromState < 0 then []
  else collectLoop read imageBase unwindMapRva maxState toState 64 fromState

end Code

/-! ### Maps -/

/-- **A memory has a map**, in which every state leads outwards. -/
structure HasUnwindMap (read : MemRead) (imageBase unwindMapRva : ℕ)
    (entries : List UnwindMapEntry) : Prop where
  /-- There is one. -/
  present : unwindMapRva ≠ 0
  /-- Its entries. -/
  entry : ∀ (i : ℕ) e, entries[i]? = some e →
    readUnwindMapEntry read imageBase unwindMapRva i = some e
  /-- Every state leads outwards. -/
  outwards : ∀ (i : ℕ) e, entries[i]? = some e → -1 ≤ e.toState ∧ e.toState < i

/-- The entry of a state. -/
def entryAt (entries : List UnwindMapEntry) (state : ℤ) : Option UnwindMapEntry :=
  if state < 0 then none else entries[state.toNat]?

/-- A way along the map, by the states that are left. -/
inductive Chain (entries : List UnwindMapEntry) : ℤ → List UnwindMapEntry → ℤ → Prop
  /-- No state is left. -/
  | here (state : ℤ) : Chain entries state [] state
  /-- A state is left. -/
  | leave {state stop : ℤ} {e : UnwindMapEntry} {left : List UnwindMapEntry}
    (he : entryAt entries state = some e) (hrest : Chain entries e.toState left stop) :
    Chain entries state (e :: left) stop

/-- The actions of states. -/
def actionsOf (left : List UnwindMapEntry) : List ℕ :=
  (left.map UnwindMapEntry.actionRva).filter (· ≠ 0)

theorem actionsOf_append (left right : List UnwindMapEntry) :
    actionsOf (left ++ right) = actionsOf left ++ actionsOf right := by
  simp [actionsOf]

theorem actionsOf_cons (e : UnwindMapEntry) (left : List UnwindMapEntry) :
    actionsOf (e :: left) = (if e.actionRva ≠ 0 then [e.actionRva] else []) ++ actionsOf left := by
  rw [actionsOf, List.map_cons, List.filter_cons]
  split_ifs with h1 h2 h2 <;> simp_all [actionsOf]

theorem actionsOf_eq_nil_iff {left : List UnwindMapEntry} :
    actionsOf left = [] ↔ ∀ e ∈ left, e.actionRva = 0 := by
  simp [actionsOf]

variable {read : MemRead} {imageBase unwindMapRva : ℕ} {entries left : List UnwindMapEntry}
  {start stop : ℤ}

theorem HasUnwindMap.entryAt (h : HasUnwindMap read imageBase unwindMapRva entries) {state : ℤ}
    {e : UnwindMapEntry} (he : entryAt entries state = some e) :
    0 ≤ state ∧ state < entries.length ∧ -1 ≤ e.toState ∧ e.toState < state ∧
      readUnwindMapEntry read imageBase unwindMapRva state = some e := by
  rw [MsvcEh.entryAt] at he
  split_ifs at he with hneg
  have hstate : ((state.toNat : ℕ) : ℤ) = state := Int.toNat_of_nonneg (by omega)
  have hlt := (List.getElem?_eq_some_iff.mp he).1
  have hread := h.entry _ e he
  obtain ⟨hlow, hout⟩ := h.outwards _ e he
  rw [hstate] at hread hout
  exact ⟨by omega, by omega, hlow, hout, hread⟩

/-- Ways go outwards. -/
theorem HasUnwindMap.le (h : HasUnwindMap read imageBase unwindMapRva entries)
    (hc : Chain entries start left stop) : stop ≤ start := by
  induction hc with
  | here state => exact le_rfl
  | leave he hrest ih =>
    obtain ⟨-, -, -, hlt, -⟩ := h.entryAt he
    omega

/-- A way after a way. -/
theorem Chain.trans {middle : ℤ} {right : List UnwindMapEntry} (h1 : Chain entries start left middle)
    (h2 : Chain entries middle right stop) : Chain entries start (left ++ right) stop := by
  induction h1 with
  | here state => exact h2
  | leave he hrest ih => exact .leave he (ih h2)

/-- There is one way between two states. -/
theorem HasUnwindMap.unique (h : HasUnwindMap read imageBase unwindMapRva entries)
    {left' : List UnwindMapEntry} (hc : Chain entries start left stop)
    (hc' : Chain entries start left' stop) : left = left' := by
  induction hc generalizing left' with
  | here state =>
    cases hc' with
    | here => rfl
    | leave he hrest =>
      obtain ⟨-, -, -, hlt, -⟩ := h.entryAt he
      exact absurd (h.le hrest) (by omega)
  | leave he hrest ih =>
    cases hc' with
    | here =>
      obtain ⟨-, -, -, hlt, -⟩ := h.entryAt he
      exact absurd (h.le hrest) (by omega)
    | leave he' hrest' =>
      obtain rfl := Option.some.inj (he.symm.trans he')
      rw [ih hrest']

/-- **What is collected** in some rounds: the actions of as many states. -/
theorem collectLoop_eq (h : HasUnwindMap read imageBase unwindMapRva entries)
    (hc : Chain entries start left stop) (rounds : ℕ) :
    collectLoop read imageBase unwindMapRva entries.length stop rounds start =
      actionsOf (left.take rounds) := by
  induction rounds generalizing start left with
  | zero => rfl
  | succ rounds ih =>
    rw [collectLoop]
    cases hc with
    | here => rw [if_pos (.inr le_rfl)]; rfl
    | leave he hrest =>
      obtain ⟨hnonneg, hlt, -, hout, hread⟩ := h.entryAt he
      have hle := h.le hrest
      rw [if_neg (by omega), if_neg (by omega), hread]
      simp only
      rw [if_neg (not_le.mpr hout), ih hrest, List.take_succ_cons, actionsOf_cons]

theorem collectUnwindActions_eq (h : HasUnwindMap read imageBase unwindMapRva entries)
    (hc : Chain entries start left stop) :
    collectUnwindActions read imageBase unwindMapRva entries.length start stop =
      actionsOf (left.take 64) := by
  rw [collectUnwindActions]
  split_ifs with hnone
  · -- there is no state outside of all of them
    cases hc with
    | here => rfl
    | leave he hrest =>
      obtain ⟨hnonneg, -⟩ := h.entryAt he
      exact absurd (hnone.resolve_left h.present) (by omega)
  · exact collectLoop_eq h hc 64

/-- **When nothing is missing**: no state after the first 64 has an action. And the actions of a way
are those of its parts, unless the second part has actions that are beyond the 64th state of the
whole. -/
theorem collectUnwindActions_complete_iff
    (h : HasUnwindMap read imageBase unwindMapRva entries) (hc : Chain entries start left stop) :
    (collectUnwindActions read imageBase unwindMapRva entries.length start stop = actionsOf left ↔
      ∀ e ∈ left.drop 64, e.actionRva = 0) ∧
    ∀ middle before after, Chain entries start before middle → Chain entries middle after stop →
      (collectUnwindActions read imageBase unwindMapRva entries.length start stop =
          collectUnwindActions read imageBase unwindMapRva entries.length start middle ++
            collectUnwindActions read imageBase unwindMapRva entries.length middle stop ↔
        ∀ e ∈ (after.take 64).drop (64 - before.length), e.actionRva = 0) := by
  constructor
  · have hsplit : actionsOf left = actionsOf (left.take 64) ++ actionsOf (left.drop 64) := by
      rw [← actionsOf_append, List.take_append_drop]
    rw [collectUnwindActions_eq h hc, hsplit, ← actionsOf_eq_nil_iff]
    exact List.self_eq_append_right
  · intro middle before after h1 h2
    have hleft := h.unique hc (h1.trans h2)
    rw [collectUnwindActions_eq h hc, collectUnwindActions_eq h h1,
      collectUnwindActions_eq h h2, hleft, List.take_append, actionsOf_append,
      List.append_cancel_left_eq]
    have hpart : after.take 64 =
        after.take (64 - before.length) ++ (after.take 64).drop (64 - before.length) := by
      have htake : after.take (64 - before.length) = (after.take 64).take (64 - before.length) := by
        rw [List.take_take, Nat.min_eq_left (Nat.sub_le _ _)]
      rw [htake, List.take_append_drop]
    rw [hpart, actionsOf_append, ← hpart, ← actionsOf_eq_nil_iff]
    exact List.self_eq_append_right

/-! ### States within each other -/

/-- As many states within each other, each with an action. -/
def nestedStates (n : ℕ) : List UnwindMapEntry :=
  (List.range n).map fun i : ℕ => ⟨(i : ℤ) - 1, i + 1⟩

/-- A memory with a map of them at 0x1000. -/
def nestedMemory (va n : ℕ) : Option (List UInt8) :=
  let i := (va - 0x1000) / 8
  some (toLe n (if va % 8 = 0 then (BitVec.ofInt 32 ((i : ℤ) - 1)).toNat else i + 1))

theorem nestedMemory_toState (i : ℕ) (hi : i < 1000) :
    readI32 nestedMemory (0x1000 + i * 8) = some ((i : ℤ) - 1) := by
  have hdiv : (0x1000 + i * 8 - 0x1000) / 8 = i := by omega
  have hmod : (0x1000 + i * 8) % 8 = 0 := by omega
  have hlt : (BitVec.ofInt 32 ((i : ℤ) - 1)).toNat < 256 ^ 4 := BitVec.isLt _
  have hint : (BitVec.ofInt 32 ((i : ℤ) - 1)).toInt = (i : ℤ) - 1 :=
    BitVec.toInt_ofInt_eq_self (by decide) (by norm_num; omega) (by norm_num; omega)
  rw [readI32, readU32, nestedMemory]
  simp only [hdiv, hmod, if_true, Option.map_some, fromLe_toLe_of_lt hlt, BitVec.ofNat_toNat,
    BitVec.setWidth_eq, hint]

theorem nestedMemory_actionRva (i : ℕ) (hi : i < 1000) :
    readU32 nestedMemory (0x1000 + i * 8 + 4) = some (i + 1) := by
  have hdiv : (0x1000 + i * 8 + 4 - 0x1000) / 8 = i := by omega
  have hmod : ¬(0x1000 + i * 8 + 4) % 8 = 0 := by omega
  rw [readU32, nestedMemory]
  simp only [hdiv, hmod, if_false, Option.map_some]
  rw [fromLe_toLe_of_lt (by omega)]

theorem hasUnwindMap_nested {n : ℕ} (hn : n ≤ 1000) :
    HasUnwindMap nestedMemory 0 0x1000 (nestedStates n) := by
  have hmem (i : ℕ) (e : UnwindMapEntry) (he : (nestedStates n)[i]? = some e) :
      i < n ∧ e = ⟨(i : ℤ) - 1, i + 1⟩ := by
    rw [nestedStates, List.getElem?_map, Option.map_eq_some_iff] at he
    obtain ⟨j, hj, rfl⟩ := he
    obtain ⟨hlt, rfl⟩ := List.getElem?_eq_some_iff.mp hj
    rw [List.length_range] at hlt
    rw [List.getElem_range]
    exact ⟨hlt, rfl⟩
  refine ⟨by decide, fun i e he => ?_, fun i e he => ?_⟩
  · obtain ⟨hlt, rfl⟩ := hmem i e he
    have hva : satAdd (satAdd 0 0x1000) ((i : ℤ).toNat * 8) = 0x1000 + i * 8 := by
      rw [Int.toNat_natCast, satAdd, satAdd]
      omega
    rw [readUnwindMapEntry, if_neg (by omega), hva]
    simp only [nestedMemory_toState i (by omega), nestedMemory_actionRva i (by omega),
      Option.bind_eq_bind, Option.bind_some]
  · obtain ⟨-, rfl⟩ := hmem i e he
    simp only
    omega

/-- The way out of all of them. -/
theorem chain_nested (n : ℕ) : ∀ k ≤ n,
    Chain (nestedStates n) ((k : ℤ) - 1) (nestedStates k).reverse (-1) := by
  intro k
  induction k with
  | zero => exact fun _ => .here _
  | succ k ih =>
    intro hk
    have hrev : (nestedStates (k + 1)).reverse =
        ⟨(k : ℤ) - 1, k + 1⟩ :: (nestedStates k).reverse := by
      rw [nestedStates, List.range_succ, List.map_append, List.reverse_append]
      rfl
    rw [hrev]
    refine .leave ?_ (ih (by omega))
    rw [entryAt, if_neg (by omega), nestedStates, List.getElem?_map]
    have hidx : ((k + 1 : ℕ) - 1 : ℤ).toNat = k := by omega
    rw [hidx, List.getElem?_range (by omega)]
    rfl

/-- Three states. -/
theorem collectUnwindActions_complete_three :
    collectUnwindActions nestedMemory 0 0x1000 3 2 (-1) = [3, 2, 1] := by
  have h := (collectUnwindActions_complete_iff (hasUnwindMap_nested (n := 3) (by decide))
    (chain_nested 3 3 le_rfl)).1.mpr (by decide)
  exact h

/-- **Of 65 states within each other** the outermost is forgotten. -/
theorem not_collectUnwindActions_complete :
    ¬∀ (read : MemRead) (imageBase unwindMapRva : ℕ) (entries left : List UnwindMapEntry)
      (start stop : ℤ), HasUnwindMap read imageBase unwindMapRva entries → -1 ≤ stop →
        Chain entries start left stop →
          collectUnwindActions read imageBase unwindMapRva entries.length start stop =
            actionsOf left := by
  intro hall
  have hmap := hasUnwindMap_nested (n := 65) (by decide)
  have hchain := chain_nested 65 65 le_rfl
  have h := hall _ _ _ _ _ _ _ hmap le_rfl hchain
  rw [collectUnwindActions_eq hmap hchain] at h
  have hlen := congrArg List.length h
  revert hlen
  decide +kernel

end MsvcEh

end Wie
