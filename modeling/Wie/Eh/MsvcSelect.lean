import Wie.Eh.MsvcCatch

/-!
# Which catch handler is taken

The rule of the language: the blocks that cover the state of the call are taken in order, inner ones
first, and the first handler counts that is for all types or for a thrown one. The loader of states
is asked with the return address of the call, though, and a handler for a thrown type is preferred to
one for all types even if it is of an outer block.

## Main definitions

* `FuncTables`, `FuncTables.At` — the tables of a function, and a memory that has them
* `FuncTables.selected` — the handler by the rule
* `FuncTables.CatchAgrees` — when the search follows the rule

## Main results

* `findMsvcCatch_eq_preferred` — what the search takes
* `findMsvcCatch_selected_iff` — when that is the handler by the rule
-/

namespace Wie

namespace MsvcEh

/-! ### The rule -/

/-- A block with its handlers. -/
structure TryBlock where
  /-- The entry of the block. -/
  entry : TryBlockMapEntry
  /-- Its handlers. -/
  handlers : List HandlerType

namespace TryBlock

/-- The block covers a state. -/
def Covers (b : TryBlock) (state : ℤ) : Prop := b.entry.tryLow ≤ state ∧ state ≤ b.entry.tryHigh

instance (b : TryBlock) (state : ℤ) : Decidable (b.Covers state) :=
  inferInstanceAs (Decidable (_ ∧ _))

/-- The handlers, with their block. -/
def choices (b : TryBlock) : List (TryBlockMapEntry × HandlerType) :=
  b.handlers.map fun ht => (b.entry, ht)

/-- Of two blocks, the first is inside the second or they have no state in common. -/
def InnerFirst (a b : TryBlock) : Prop :=
  (b.entry.tryLow ≤ a.entry.tryLow ∧ a.entry.tryHigh ≤ b.entry.tryHigh) ∨
    a.entry.tryHigh < b.entry.tryLow ∨ b.entry.tryHigh < a.entry.tryLow

end TryBlock

/-- The tables of a function. -/
structure FuncTables where
  /-- The header. -/
  info : FuncInfoHeader
  /-- From addresses to states. -/
  ipMap : List (ℕ × ℤ)
  /-- The blocks. -/
  tryBlocks : List TryBlock

/-- A handler for one of some types. -/
def HandlerType.Typed (types : List ℕ) (ht : HandlerType) : Prop :=
  ¬ht.IsCatchAll ∧ ht.typeRva ∈ types

/-- A handler that catches an object with some types. -/
def HandlerType.Catches (types : List ℕ) (ht : HandlerType) : Prop :=
  ht.IsCatchAll ∨ ht.typeRva ∈ types

instance (types : List ℕ) (ht : HandlerType) : Decidable (ht.Typed types) :=
  inferInstanceAs (Decidable (_ ∧ _))

instance (types : List ℕ) (ht : HandlerType) : Decidable (ht.Catches types) :=
  inferInstanceAs (Decidable (_ ∨ _))

namespace FuncTables

variable (t : FuncTables)

/-- The state of an address: that of the last entry at or before it. -/
def stateAt (rva : ℕ) : ℤ :=
  ((t.ipMap.filter fun e => e.1 ≤ rva).getLast?.map Prod.snd).getD (-1)

/-- The handlers of the blocks that cover a state, in order. -/
def choices (state : ℤ) : List (TryBlockMapEntry × HandlerType) :=
  (t.tryBlocks.filter fun b => b.Covers state).flatMap TryBlock.choices

/-- **The handler by the rule.** -/
def selected (imageBase : ℕ) (types : List ℕ) (callRva : ℕ) : Option MsvcCatch :=
  ((t.choices (t.stateAt callRva)).find? fun c => c.2.Catches types).map fun c =>
    .of imageBase t.info (t.stateAt callRva) c.1 c.2

/-- **A memory has the tables** of a function, with entries in order, inner blocks first and
addresses of handlers that can be such. -/
structure At (read : MemRead) (imageBase va : ℕ) : Prop where
  /-- The header. -/
  header : parseFuncInfo read va = some t.info
  /-- The number of entries of the map of states; there is at least one. -/
  ipCount : t.info.nIpMap = t.ipMap.length ∧ t.ipMap ≠ [] ∧ t.info.ipToStateMapRva ≠ 0
  /-- The entries of the map of states. -/
  ipEntry : ∀ i e, t.ipMap[i]? = some e →
    readU32 read (satAdd (satAdd imageBase t.info.ipToStateMapRva) (i * 8)) = some e.1 ∧
      readI32 read (satAdd (satAdd imageBase t.info.ipToStateMapRva) (i * 8) + 4) = some e.2
  /-- The map of states is in order. -/
  sorted : t.ipMap.Pairwise fun e f => e.1 ≤ f.1
  /-- The number of blocks. -/
  tryCount : t.info.nTryBlocks = t.tryBlocks.length ∧
    (t.tryBlocks ≠ [] → t.info.tryBlockMapRva ≠ 0)
  /-- The blocks. -/
  tryEntry : ∀ i b, t.tryBlocks[i]? = some b → readTryBlock read imageBase t.info i = some b.entry
  /-- Inner blocks are before outer ones. -/
  nested : t.tryBlocks.Pairwise TryBlock.InnerFirst
  /-- The number of handlers of a block. -/
  catchCount : ∀ b ∈ t.tryBlocks, b.entry.nCatches = b.handlers.length ∧
    (b.handlers ≠ [] → b.entry.handlerArrayRva ≠ 0)
  /-- The handlers of a block. -/
  handlerEntry : ∀ b ∈ t.tryBlocks, ∀ i ht, b.handlers[i]? = some ht →
    readHandlerType read imageBase b.entry.handlerArrayRva i = some ht

end FuncTables

/-- **A memory says which types are thrown**, none without an object. -/
def ThrowsAt (read : MemRead) (imageBase throwInfoVa : ℕ) (types : List ℕ) : Prop :=
  if throwInfoVa = 0 then types = []
  else
    ∃ ctaRva, readU32 read (satAdd throwInfoVa 12) = some ctaRva ∧ ctaRva ≠ 0 ∧
      readI32 read (satAdd imageBase ctaRva) = some (types.length : ℤ) ∧
      ∀ i type, types[i]? = some type → type ≠ 0 ∧ ∃ ctRva,
        readU32 read (satAdd (satAdd (satAdd imageBase ctaRva) 4) (i * 4)) = some ctRva ∧
          ctRva ≠ 0 ∧ readU32 read (satAdd (satAdd imageBase ctRva) 4) = some type

/-- The types that are looked at: there are none if there are more than 64. -/
def seenTypes (types : List ℕ) : List ℕ := if types.length ≤ 64 then types else []

/-- **When the search follows the rule.** Either no handler catches, both by the state of the call
and by that of the return address; or these states are the same, and the first handler that catches
is for a type that is looked at, or is for all types with no handler for such a type after it. -/
def FuncTables.CatchAgrees (t : FuncTables) (types : List ℕ) (callRva retRva : ℕ) : Prop :=
  ((∀ c ∈ t.choices (t.stateAt callRva), ¬c.2.Catches types) ∧
    ∀ c ∈ t.choices (t.stateAt retRva), ¬c.2.Catches (seenTypes types)) ∨
  (t.stateAt callRva = t.stateAt retRva ∧ ∃ before c after,
    t.choices (t.stateAt callRva) = before ++ c :: after ∧ (∀ b ∈ before, ¬b.2.Catches types) ∧
      (c.2.Typed (seenTypes types) ∨
        c.2.IsCatchAll ∧ ∀ a ∈ after, ¬a.2.Typed (seenTypes types)))

/-! ### Reading the tables -/

variable {read : MemRead} {imageBase va : ℕ} {t : FuncTables} {types : List ℕ}

/-- The map of states is searched up to the first entry past the address. -/
theorem stateLoop_eq {mapVa pcRva : ℕ} {entries : List (ℕ × ℤ)} {i : ℕ} (best : Option ℤ)
    (hread : ∀ j e, entries[j]? = some e → readU32 read (satAdd mapVa ((i + j) * 8)) = some e.1 ∧
      readI32 read (satAdd mapVa ((i + j) * 8) + 4) = some e.2)
    (hsorted : entries.Pairwise fun e f => e.1 ≤ f.1) :
    stateLoop read mapVa pcRva entries.length i best =
      some (((entries.filter fun e => e.1 ≤ pcRva).getLast?.map Prod.snd |>.or best).getD (-1)) := by
  induction entries generalizing i best with
  | nil => rfl
  | cons e entries ih =>
    obtain ⟨h1, h2⟩ := hread 0 e rfl
    obtain ⟨hlater, hsorted⟩ := List.pairwise_cons.mp hsorted
    have hrest : ∀ j f, entries[j]? = some f →
        readU32 read (satAdd mapVa ((i + 1 + j) * 8)) = some f.1 ∧
          readI32 read (satAdd mapVa ((i + 1 + j) * 8) + 4) = some f.2 := by
      intro j f hf
      have := hread (j + 1) f hf
      rwa [show i + (j + 1) = i + 1 + j by omega] at this
    simp only [Nat.add_zero] at h1 h2
    rw [List.length_cons, stateLoop]
    simp only [h1, h2, Option.bind_eq_bind, Option.bind_some]
    by_cases hle : e.1 ≤ pcRva
    · rw [if_pos hle, ih (some e.2) hrest hsorted, List.filter_cons_of_pos (by simpa using hle),
        List.getLast?_cons]
      cases (entries.filter fun e => e.1 ≤ pcRva).getLast? with
      | none => rfl
      | some f => rfl
    · -- all later entries are past the address too
      have hnone : entries.filter (fun e => e.1 ≤ pcRva) = [] := by
        refine List.filter_eq_nil_iff.mpr fun f hf => ?_
        have := hlater f hf
        simp only [decide_eq_true_eq]
        omega
      rw [if_neg hle, List.filter_cons_of_neg (by simpa using hle), hnone]
      rfl

theorem FuncTables.At.state (h : t.At read imageBase va) {controlPc : ℕ}
    (hlt : controlPc - imageBase < 2 ^ 32) :
    stateForIp read imageBase t.info controlPc = some (t.stateAt (controlPc - imageBase)) := by
  obtain ⟨hcount, hne, hrva⟩ := h.ipCount
  have hpos : t.info.nIpMap ≠ 0 := by
    rw [hcount]
    exact fun h0 => hne (List.length_eq_zero_iff.mp h0)
  rw [stateForIp, if_neg (by omega), hcount, Nat.mod_eq_of_lt hlt,
    stateLoop_eq none (fun j e he => ?_) h.sorted, Option.or_none]
  · rfl
  · rw [Nat.zero_add]
    exact h.ipEntry j e he

/-- The types are read in order. -/
theorem catchableLoop_eq {ctaVa : ℕ} {types : List ℕ} {i : ℕ} (out : List ℕ)
    (hread : ∀ j type, types[j]? = some type → type ≠ 0 ∧ ∃ ctRva,
      readU32 read (satAdd (satAdd ctaVa 4) ((i + j) * 4)) = some ctRva ∧ ctRva ≠ 0 ∧
        readU32 read (satAdd (satAdd imageBase ctRva) 4) = some type) :
    catchableLoop read imageBase ctaVa types.length i out = some (out ++ types) := by
  induction types generalizing i out with
  | nil => rw [List.append_nil]; rfl
  | cons type types ih =>
    obtain ⟨hne, ctRva, h1, h2, h3⟩ := hread 0 type rfl
    rw [Nat.add_zero] at h1
    rw [List.length_cons, catchableLoop]
    simp only [h1, h3, Option.bind_eq_bind, Option.bind_some, if_neg h2, if_pos hne]
    rw [ih, List.append_assoc, List.singleton_append]
    intro j ty hty
    have := hread (j + 1) ty hty
    rwa [show i + (j + 1) = i + 1 + j by omega] at this

theorem throwCatchableTypeRvas_eq {throwInfoVa : ℕ} (h : ThrowsAt read imageBase throwInfoVa types) :
    (throwCatchableTypeRvas read imageBase throwInfoVa).getD [] = seenTypes types := by
  rw [ThrowsAt] at h
  rw [throwCatchableTypeRvas]
  by_cases hzero : throwInfoVa = 0
  · rw [if_pos hzero] at h ⊢
    rw [h]
    rfl
  · rw [if_neg hzero] at h ⊢
    obtain ⟨ctaRva, h1, h2, h3, h4⟩ := h
    simp only [h1, h3, Option.bind_eq_bind, Option.bind_some, if_neg h2]
    cases types with
    | nil => rfl
    | cons type types =>
      by_cases hmany : (type :: types).length ≤ 64
      · have hloop := catchableLoop_eq (i := 0) [] fun j ty hty => by
          rw [Nat.zero_add]
          exact h4 j ty hty
        rw [if_neg (by rw [List.length_cons] at hmany ⊢; omega), Int.toNat_natCast, hloop,
          seenTypes, if_pos hmany]
        rfl
      · rw [if_pos (by omega), seenTypes, if_neg hmany]
        rfl

/-! ### What the search takes -/

/-- A handler for one of some types, and if there is none, one for all types. -/
def preferred (types : List ℕ) (choices : List (TryBlockMapEntry × HandlerType)) :
    Option (TryBlockMapEntry × HandlerType) :=
  (choices.find? fun c => c.2.Typed types).or (choices.find? fun c => c.2.IsCatchAll)

/-- How a loop goes on after a list of handlers. -/
def afterChoices (types : List ℕ) (choices : List (TryBlockMapEntry × HandlerType))
    (make : TryBlockMapEntry × HandlerType → MsvcCatch) (catchAll : Option MsvcCatch) :
    Except (Option MsvcCatch) (Option MsvcCatch) :=
  match choices.find? fun c => c.2.Typed types with
  | some c => .error (some (make c))
  | none => .ok (catchAll.or ((choices.find? fun c => c.2.IsCatchAll).map make))

/-- One list of handlers after the other. -/
theorem afterChoices_append (types : List ℕ) (cs ds : List (TryBlockMapEntry × HandlerType))
    (make : TryBlockMapEntry × HandlerType → MsvcCatch) (catchAll : Option MsvcCatch) :
    afterChoices types (cs ++ ds) make catchAll =
      match afterChoices types cs make catchAll with
      | .error r => .error r
      | .ok catchAll => afterChoices types ds make catchAll := by
  simp only [afterChoices, List.find?_append]
  cases cs.find? fun c => c.2.Typed types with
  | some c => rfl
  | none =>
    simp only [Option.none_or, Option.or_assoc, Option.map_or]

theorem handlerRva_ne_zero {arrayRva i : ℕ} {ht : HandlerType}
    (h : readHandlerType read imageBase arrayRva i = some ht) : ht.handlerRva ≠ 0 := by
  rw [readHandlerType] at h
  obtain ⟨handlerRva, -, h⟩ := Option.bind_eq_some_iff.mp h
  split_ifs at h with hgarbage
  obtain ⟨adjectives, -, h⟩ := Option.bind_eq_some_iff.mp h
  obtain ⟨typeRva, -, h⟩ := Option.bind_eq_some_iff.mp h
  obtain ⟨dispCatchObj, -, h⟩ := Option.bind_eq_some_iff.mp h
  cases h
  exact fun h0 => hgarbage (.inl h0)

theorem handlerMatches_iff {ht : HandlerType} {thrownTypes : Option (List ℕ)}
    (hc : ¬ht.IsCatchAll) :
    handlerMatches ht thrownTypes = true ↔ ht.Typed (thrownTypes.getD []) := by
  cases thrownTypes with
  | none => simp [handlerMatches, HandlerType.Typed, hc]
  | some types => simp [handlerMatches, HandlerType.Typed, hc]

variable {state : ℤ} {thrownTypes : Option (List ℕ)}

/-- The handlers of a block. -/
theorem handlerLoop_eq {info : FuncInfoHeader} {tb : TryBlockMapEntry} {hts : List HandlerType}
    {hi : ℕ} (catchAll : Option MsvcCatch) (hread : ∀ j ht, hts[j]? = some ht →
      readHandlerType read imageBase tb.handlerArrayRva (hi + j) = some ht) :
    handlerLoop read imageBase info state thrownTypes tb hts.length hi catchAll =
      afterChoices (thrownTypes.getD []) (hts.map fun ht => (tb, ht))
        (fun c => .of imageBase info state c.1 c.2) catchAll := by
  induction hts generalizing hi catchAll with
  | nil => rw [afterChoices]; simp [handlerLoop]
  | cons ht hts ih =>
    have hht := hread 0 ht rfl
    have hrest : ∀ j g, hts[j]? = some g →
        readHandlerType read imageBase tb.handlerArrayRva (hi + 1 + j) = some g := by
      intro j g hg
      have := hread (j + 1) g hg
      rwa [show hi + (j + 1) = hi + 1 + j by omega] at this
    have hsplit : (ht :: hts).map (fun ht => (tb, ht)) =
        [(tb, ht)] ++ hts.map fun ht => (tb, ht) := rfl
    rw [Nat.add_zero] at hht
    rw [List.length_cons, handlerLoop, hht, hsplit, afterChoices_append]
    simp only [if_neg (handlerRva_ne_zero hht)]
    by_cases hall : ht.IsCatchAll
    · have hone : afterChoices (thrownTypes.getD []) [(tb, ht)]
          (fun c => .of imageBase info state c.1 c.2) catchAll =
          .ok (catchAll.or (some (.of imageBase info state tb ht))) := by
        simp [afterChoices, HandlerType.Typed, hall]
      rw [if_neg (not_not.mpr hall), ih _ hrest, hone]
    · rw [if_pos hall]
      by_cases htyped : ht.Typed (thrownTypes.getD [])
      · have hone : afterChoices (thrownTypes.getD []) [(tb, ht)]
            (fun c => .of imageBase info state c.1 c.2) catchAll =
            .error (some (.of imageBase info state tb ht)) := by
          simp [afterChoices, htyped]
        rw [if_pos ((handlerMatches_iff hall).mpr htyped), hone]
      · have hone : afterChoices (thrownTypes.getD []) [(tb, ht)]
            (fun c => .of imageBase info state c.1 c.2) catchAll = .ok catchAll := by
          simp [afterChoices, htyped, hall]
        rw [if_neg fun h => htyped ((handlerMatches_iff hall).mp h), ih _ hrest, hone]

/-- The blocks. -/
theorem tryLoop_eq {info : FuncInfoHeader} {bs : List TryBlock} {ti : ℕ}
    (catchAll : Option MsvcCatch)
    (hread : ∀ j b, bs[j]? = some b → readTryBlock read imageBase info (ti + j) = some b.entry)
    (hcount : ∀ b ∈ bs, b.entry.nCatches = b.handlers.length ∧
      (b.handlers ≠ [] → b.entry.handlerArrayRva ≠ 0))
    (hhandler : ∀ b ∈ bs, ∀ i ht, b.handlers[i]? = some ht →
      readHandlerType read imageBase b.entry.handlerArrayRva i = some ht) :
    tryLoop read imageBase info state thrownTypes bs.length ti catchAll =
      afterChoices (thrownTypes.getD [])
        ((bs.filter fun b => b.Covers state).flatMap TryBlock.choices)
        (fun c => .of imageBase info state c.1 c.2) catchAll := by
  induction bs generalizing ti catchAll with
  | nil => rw [afterChoices]; simp [tryLoop]
  | cons b bs ih =>
    have hb := hread 0 b rfl
    have hrest : ∀ j c, bs[j]? = some c →
        readTryBlock read imageBase info (ti + 1 + j) = some c.entry := by
      intro j c hc
      have := hread (j + 1) c hc
      rwa [show ti + (j + 1) = ti + 1 + j by omega] at this
    have hnext := fun catchAll => ih catchAll hrest
      (fun c hc => hcount c (List.mem_cons_of_mem _ hc))
      fun c hc => hhandler c (List.mem_cons_of_mem _ hc)
    obtain ⟨hlen, hrva⟩ := hcount b List.mem_cons_self
    rw [Nat.add_zero] at hb
    rw [List.length_cons, tryLoop, hb]
    simp only
    by_cases hcov : b.Covers state
    · have hin : ¬(state < b.entry.tryLow ∨ b.entry.tryHigh < state) := by
        rw [TryBlock.Covers] at hcov
        omega
      rw [if_neg hin, List.filter_cons_of_pos (by simpa using hcov), List.flatMap_cons,
        afterChoices_append]
      by_cases hempty : b.handlers = []
      · have hnone : b.entry.nCatches ≤ 0 := by simp [hlen, hempty]
        rw [if_pos (.inl hnone), hnext, TryBlock.choices, hempty]
        simp [afterChoices]
      · have hpos : 0 < b.handlers.length := List.length_pos_iff.mpr hempty
        have hhandlers : ∀ j ht, b.handlers[j]? = some ht →
            readHandlerType read imageBase b.entry.handlerArrayRva (0 + j) = some ht := by
          intro j ht hj
          rw [Nat.zero_add]
          exact hhandler b List.mem_cons_self j ht hj
        have hpresent := hrva hempty
        rw [if_neg (by omega), hlen, Int.toNat_natCast, handlerLoop_eq catchAll hhandlers,
          TryBlock.choices]
        cases afterChoices (thrownTypes.getD []) (b.handlers.map fun ht => (b.entry, ht))
          (fun c => MsvcCatch.of imageBase info state c.1 c.2) catchAll with
        | error r => rfl
        | ok catchAll => exact hnext catchAll
    · rw [if_pos (by rw [TryBlock.Covers] at hcov; omega), hnext,
        List.filter_cons_of_neg (by simpa using hcov)]

variable {controlPc callPc throwInfoVa : ℕ}

/-- **What the search takes**: by the state of the return address, and a handler for a type first. -/
theorem findMsvcCatch_eq_preferred (h : t.At read imageBase va)
    (hthrow : ThrowsAt read imageBase throwInfoVa types)
    (hlt : controlPc - imageBase < 2 ^ 32) :
    findMsvcCatch read imageBase va controlPc throwInfoVa =
      (preferred (seenTypes types) (t.choices (t.stateAt (controlPc - imageBase)))).map fun c =>
        .of imageBase t.info (t.stateAt (controlPc - imageBase)) c.1 c.2 := by
  obtain ⟨hcount, hrva⟩ := h.tryCount
  rw [findMsvcCatch, h.header]
  simp only
  by_cases hempty : t.tryBlocks = []
  · rw [if_pos (.inl (by rw [hcount, hempty]; rfl)), FuncTables.choices, hempty]
    rfl
  · have hpos : 0 < t.tryBlocks.length := List.length_pos_iff.mpr hempty
    have hpresent := hrva hempty
    have hblocks : ∀ j b, t.tryBlocks[j]? = some b →
        readTryBlock read imageBase t.info (0 + j) = some b.entry := by
      intro j b hj
      rw [Nat.zero_add]
      exact h.tryEntry j b hj
    rw [if_neg (by omega), h.state hlt]
    simp only
    rw [hcount, tryLoop_eq none hblocks h.catchCount h.handlerEntry,
      throwCatchableTypeRvas_eq hthrow, afterChoices, preferred, FuncTables.choices]
    cases ((t.tryBlocks.filter fun b => b.Covers (t.stateAt (controlPc - imageBase))).flatMap
        TryBlock.choices).find? fun c => c.2.Typed (seenTypes types) with
    | some c => rfl
    | none => rw [Option.none_or, Option.none_or]

/-! ### The search and the rule -/

variable {choices : List (TryBlockMapEntry × HandlerType)}

theorem mem_of_mem_seenTypes {type : ℕ} (h : type ∈ seenTypes types) : type ∈ types := by
  rw [seenTypes] at h
  split_ifs at h
  · exact h
  · cases h

theorem preferred_eq_none_iff :
    preferred types choices = none ↔ ∀ c ∈ choices, ¬c.2.Catches types := by
  rw [preferred, Option.or_eq_none_iff, List.find?_eq_none, List.find?_eq_none]
  constructor
  · rintro ⟨h1, h2⟩ c hc (hall | hty)
    · exact h2 c hc (decide_eq_true hall)
    · exact h1 c hc (decide_eq_true ⟨fun hall => h2 c hc (decide_eq_true hall), hty⟩)
  · intro h
    exact ⟨fun c hc ht => h c hc (.inr (of_decide_eq_true ht).2),
      fun c hc hall => h c hc (.inl (of_decide_eq_true hall))⟩

/-- The first handler that catches is taken if it is for a type, or if it is for all types and no
handler for a type comes after it. -/
theorem preferred_of_first {before after : List (TryBlockMapEntry × HandlerType)}
    {c : TryBlockMapEntry × HandlerType} (hbefore : ∀ b ∈ before, ¬b.2.Catches types)
    (hc : c.2.Typed types ∨ c.2.IsCatchAll ∧ ∀ a ∈ after, ¬a.2.Typed types) :
    preferred types (before ++ c :: after) = some c := by
  have htyped : before.find? (fun b => b.2.Typed types) = none :=
    List.find?_eq_none.mpr fun b hb ht => hbefore b hb (.inr (of_decide_eq_true ht).2)
  have hall : before.find? (fun b => b.2.IsCatchAll) = none :=
    List.find?_eq_none.mpr fun b hb ht => hbefore b hb (.inl (of_decide_eq_true ht))
  rw [preferred, List.find?_append, List.find?_append, htyped, hall, Option.none_or,
    Option.none_or]
  rcases hc with hc | ⟨hc, hafter⟩
  · rw [List.find?_cons_of_pos (by simpa using hc), Option.some_or]
  · have hnot : ¬c.2.Typed types := fun h => h.1 hc
    have hnone : after.find? (fun a => a.2.Typed types) = none :=
      List.find?_eq_none.mpr fun a ha ht => hafter a ha (of_decide_eq_true ht)
    rw [List.find?_cons_of_neg (by simpa using hnot), hnone, Option.none_or,
      List.find?_cons_of_pos (by simpa using hc)]

theorem MsvcCatch.of_inj {info : FuncInfoHeader} {s s' : ℤ}
    {c d : TryBlockMapEntry × HandlerType}
    (h : MsvcCatch.of imageBase info s c.1 c.2 = MsvcCatch.of imageBase info s' d.1 d.2) :
    s = s' ∧ c.2.typeRva = d.2.typeRva ∧ (c.2.IsCatchAll ↔ d.2.IsCatchAll) := by
  have hstate := congrArg MsvcCatch.state h
  have htype : c.2.typeRva = d.2.typeRva := congrArg MsvcCatch.typeRva h
  have hadj : c.2.adjectives = d.2.adjectives := congrArg MsvcCatch.adjectives h
  refine ⟨hstate, htype, ?_⟩
  rw [HandlerType.IsCatchAll, HandlerType.IsCatchAll, htype, hadj]

/-- What is preferred is for a type, or for all types if no handler is for a type. -/
theorem preferred_spec {c : TryBlockMapEntry × HandlerType} (h : preferred types choices = some c) :
    c.2.Typed types ∨ c.2.IsCatchAll ∧ ∀ d ∈ choices, ¬d.2.Typed types := by
  rw [preferred] at h
  cases hty : choices.find? (fun c => c.2.Typed types) with
  | some d =>
    rw [hty, Option.some_or] at h
    cases h
    exact .inl (by simpa using List.find?_some hty)
  | none =>
    rw [hty, Option.none_or] at h
    exact .inr ⟨by simpa using List.find?_some h, by simpa using List.find?_eq_none.mp hty⟩

/-- **When the search follows the rule**, for a call at `callPc` that returns to `controlPc`. -/
theorem findMsvcCatch_selected_iff (h : t.At read imageBase va)
    (hthrow : ThrowsAt read imageBase throwInfoVa types) (hlt : controlPc - imageBase < 2 ^ 32) :
    findMsvcCatch read imageBase va controlPc throwInfoVa =
        t.selected imageBase types (callPc - imageBase) ↔
      t.CatchAgrees types (callPc - imageBase) (controlPc - imageBase) := by
  rw [findMsvcCatch_eq_preferred h hthrow hlt, FuncTables.selected, FuncTables.CatchAgrees]
  generalize t.stateAt (callPc - imageBase) = s
  generalize t.stateAt (controlPc - imageBase) = r
  cases hfirst : (t.choices s).find? fun c => c.2.Catches types with
  | none =>
    have hnone : ∀ c ∈ t.choices s, ¬c.2.Catches types := by
      simpa using List.find?_eq_none.mp hfirst
    rw [Option.map_none, Option.map_eq_none_iff, preferred_eq_none_iff]
    constructor
    · intro hr
      exact .inl ⟨hnone, hr⟩
    · rintro (⟨-, hr⟩ | ⟨-, before, c, after, hsplit, -, hc⟩)
      · exact hr
      · have hmem : c ∈ t.choices s := by rw [hsplit]; simp
        rcases hc with hc | hc
        · exact absurd (.inr (mem_of_mem_seenTypes hc.2)) (hnone c hmem)
        · exact absurd (.inl hc.1) (hnone c hmem)
  | some e =>
    obtain ⟨he, before, after, hsplit, hbefore⟩ := List.find?_eq_some_iff_append.mp hfirst
    have he : e.2.Catches types := by simpa using he
    have hbefore : ∀ b ∈ before, ¬b.2.Catches types := by simpa using hbefore
    rw [Option.map_some]
    constructor
    · intro hr
      obtain ⟨c, hc, hof⟩ := Option.map_eq_some_iff.mp hr
      obtain ⟨rfl, htype, hall⟩ := MsvcCatch.of_inj hof
      refine .inr ⟨rfl, before, e, after, hsplit, hbefore, ?_⟩
      rcases preferred_spec hc with hty | ⟨hca, hnone⟩
      · exact .inl ⟨fun h => hty.1 (hall.mpr h), htype ▸ hty.2⟩
      · refine .inr ⟨hall.mp hca, fun a ha => hnone a ?_⟩
        rw [hsplit]
        simp [ha]
    · rintro (⟨hnone, -⟩ | ⟨rfl, before', c, after', hsplit', hbefore', hc⟩)
      · exact absurd he (hnone e (by rw [hsplit]; simp))
      · have hcatch : c.2.Catches types := by
          rcases hc with hc | hc
          · exact .inr (mem_of_mem_seenTypes hc.2)
          · exact .inl hc.1
        have hce : c = e := by
          have hnone : before'.find? (fun c => c.2.Catches types) = none :=
            List.find?_eq_none.mpr fun b hb hb' => hbefore' b hb (of_decide_eq_true hb')
          rw [hsplit', List.find?_append, hnone, Option.none_or,
            List.find?_cons_of_pos (by simpa using hcatch)] at hfirst
          exact Option.some_inj.mp hfirst
        subst hce
        have hseen : ∀ b ∈ before', ¬b.2.Catches (seenTypes types) := by
          rintro b hb (hall | hty)
          · exact hbefore' b hb (.inl hall)
          · exact hbefore' b hb (.inr (mem_of_mem_seenTypes hty))
        rw [hsplit', preferred_of_first hseen hc]
        rfl

/-! ### A block inside another one -/

/-- A memory with one region. -/
def regionRead (base : ℕ) (bytes : List UInt8) : MemRead := fun va n =>
  if base ≤ va ∧ va + n ≤ base + bytes.length then some ((bytes.drop (va - base)).take n) else none

/-- The tables of a function: a block with a handler for all types, inside one with a handler for the
type at 0x7000. -/
def nestedTables : FuncTables where
  info := ⟨FUNCINFO_MAGIC_V3, 4, 0, 2, 0x2030, 2, 0x2020⟩
  ipMap := [(0x1000, -1), (0x1010, 1)]
  tryBlocks := [⟨⟨1, 1, 2, 1, 0x2058⟩, [⟨0x40, 0, 0, 0x5000, 0⟩]⟩,
    ⟨⟨0, 2, 3, 1, 0x206c⟩, [⟨0, 0x7000, 0x30, 0x6000, 0⟩]⟩]

/-- The tables in memory, and after them what is thrown. -/
def nestedRead : MemRead :=
  regionRead 0x140002000 ([
    -- the header
    FUNCINFO_MAGIC_V3, 4, 0, 2, 0x2030, 2, 0x2020, 0,
    -- the map of states
    0x1000, 0xffffffff, 0x1010, 1,
    -- the blocks
    1, 1, 2, 1, 0x2058, 0, 2, 3, 1, 0x206c,
    -- their handlers
    0x40, 0, 0, 0x5000, 0, 0, 0x7000, 0x30, 0x6000, 0,
    -- an object with one type
    0, 0, 0, 0x2090, 1, 0x2098, 0, 0x7000].flatMap (toLe 4))

theorem nestedTables_at : nestedTables.At nestedRead 0x140000000 0x140002000 where
  header := by decide +kernel
  ipCount := by decide
  ipEntry := by
    rintro (_ | _ | i) e he
    · cases he
      decide +kernel
    · cases he
      decide +kernel
    · simp [nestedTables] at he
  sorted := by decide
  tryCount := by
    refine ⟨rfl, fun _ => by decide⟩
  tryEntry := by
    rintro (_ | _ | i) b hb
    · cases hb
      decide +kernel
    · cases hb
      decide +kernel
    · simp [nestedTables] at hb
  nested := by
    refine .cons (fun b hb => ?_) (.cons (by simp) .nil)
    obtain rfl := List.mem_singleton.mp hb
    exact .inl (by decide)
  catchCount := by
    intro b hb
    rcases List.mem_pair.mp hb with rfl | rfl
    · exact ⟨rfl, fun _ => by decide⟩
    · exact ⟨rfl, fun _ => by decide⟩
  handlerEntry := by
    intro b hb i ht hi
    rcases List.mem_pair.mp hb with rfl | rfl
    · obtain _ | i := i
      · cases hi
        decide +kernel
      · simp at hi
    · obtain _ | i := i
      · cases hi
        decide +kernel
      · simp at hi

theorem findMsvcCatch_selected_nested :
    findMsvcCatch nestedRead 0x140000000 0x140002000 0x140001019 0 =
      nestedTables.selected 0x140000000 [] (0x140001014 - 0x140000000) := by
  have hthrow : ThrowsAt nestedRead 0x140000000 0 [] := by rw [ThrowsAt, if_pos rfl]
  have hagrees : nestedTables.CatchAgrees [] (0x140001014 - 0x140000000)
      (0x140001019 - 0x140000000) :=
    .inr ⟨by decide, [], _, _, rfl, by simp, .inr ⟨by decide, by decide +kernel⟩⟩
  exact (findMsvcCatch_selected_iff nestedTables_at hthrow (by decide)).mpr hagrees

/-- The handler of the outer block is taken although the inner one is for all types. -/
theorem not_findMsvcCatch_selected : ¬∀ (read : MemRead) (imageBase va : ℕ) (t : FuncTables)
    (throwInfoVa : ℕ) (types : List ℕ) (callPc controlPc : ℕ), t.At read imageBase va →
      ThrowsAt read imageBase throwInfoVa types → imageBase ≤ callPc → callPc < controlPc →
        controlPc - imageBase < 2 ^ 32 →
          findMsvcCatch read imageBase va controlPc throwInfoVa =
            t.selected imageBase types (callPc - imageBase) := by
  intro h
  have hthrow : ThrowsAt nestedRead 0x140000000 0x140002080 [0x7000] := by
    rw [ThrowsAt, if_neg (by decide)]
    refine ⟨0x2090, by decide +kernel, by decide, by decide +kernel, ?_⟩
    rintro (_ | i) type hi
    · cases hi
      exact ⟨by decide, 0x2098, by decide +kernel, by decide, by decide +kernel⟩
    · simp at hi
  have hwrong := h _ _ _ _ _ _ 0x140001014 0x140001019 nestedTables_at hthrow (by decide)
    (by decide) (by decide)
  exact absurd hwrong (by decide +kernel)

end MsvcEh

end Wie
