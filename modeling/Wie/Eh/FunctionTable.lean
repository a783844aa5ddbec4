import Wie.Eh.Prologue
import Wie.Lib.Extents

/-!
# Function tables

The `.pdata` section of a module lists its functions in order. To find the function that an address
is in, every module is asked in turn: first whether the address is between its first and its last
function, and then a binary search for the last function that starts at or before it.

Addresses of the functions of one module may be between those of another. A module that does not
have the function then passes the question on.

## Main definitions

* `parsePdata` — the functions that a `.pdata` section lists
* `lookupFunctionEntry` — the function an address is in
* `PdataModule` — a module with a `.pdata` section as linkers write it

## Main results

* `parsePdata_pdata` — the functions are read back
* `lookupFunctionEntry_eq_some_iff` — just the function that covers the address is found
-/

namespace Wie

/-! ### Entries -/

namespace RuntimeFunction

/-- Bytes of an entry. -/
def SIZE : ℕ := 12

/-- `RuntimeFunction::from_bytes`. -/
def fromBytes (bytes : List UInt8) (offset : ℕ) : Option RuntimeFunction :=
  if offset + SIZE ≤ bytes.length then
    let b := (bytes.drop offset).take SIZE
    some ⟨fromLe (b.take 4), fromLe ((b.drop 4).take 4), fromLe ((b.drop 8).take 4)⟩
  else none

/-- `begin_va`. -/
def beginVa (e : RuntimeFunction) (imageBase : ℕ) : ℕ := satAdd imageBase e.beginAddress

/-- `end_va`. -/
def endVa (e : RuntimeFunction) (imageBase : ℕ) : ℕ := satAdd imageBase e.endAddress

/-- `covers`. -/
def covers (e : RuntimeFunction) (va imageBase : ℕ) : Bool :=
  e.beginVa imageBase ≤ va ∧ va < e.endVa imageBase

/-- Padding at the end of a section. -/
def isSentinel (e : RuntimeFunction) : Bool :=
  e.beginAddress = 0 ∧ e.endAddress = 0 ∧ e.unwindData = 0

end RuntimeFunction

/-- `parse_pdata`. -/
def parsePdata (bytes : List UInt8) : List RuntimeFunction :=
  (List.range (bytes.length / RuntimeFunction.SIZE)).filterMap fun i =>
    (RuntimeFunction.fromBytes bytes (i * RuntimeFunction.SIZE)).bind fun e =>
      if e.isSentinel then none else some e

/-! ### Lookup -/

/-- `binary_search_by_key` on a list in order: the index of an entry with the key, and else where it
would have to be. -/
def binarySearchByKey {α : Type} (key : α → ℕ) (l : List α) (x : ℕ) : Except ℕ ℕ :=
  match bisect key l x l.length 0 l.length with
  | 0 => .error 0
  | i + 1 => if (l[i]?.map key) = some x then .ok i else .error (i + 1)

/-- What `lookup_function_entry` does with one module. -/
def lookupInModule (imageBase : ℕ) (entries : List RuntimeFunction) (controlPc : ℕ) :
    Option RuntimeFunction :=
  match entries.head?, entries.getLast? with
  | some first, some last =>
    if controlPc < first.beginVa imageBase ∨ last.endVa imageBase ≤ controlPc then none
    else
      match binarySearchByKey (fun e => e.beginAddress) entries
        ((controlPc - imageBase) % 2 ^ 32) with
      | .ok i => entries[i]?
      | .error 0 => none
      | .error (i + 1) => entries[i]?.bind fun candidate =>
        if controlPc - imageBase < candidate.endAddress then some candidate else none
  | _, _ => none

/-- `lookup_function_entry`, with the modules in the order they are asked. -/
def lookupFunctionEntry (tables : List (ℕ × List RuntimeFunction)) (controlPc : ℕ) :
    Option (RuntimeFunction × ℕ) :=
  tables.findSome? fun t => (lookupInModule t.1 t.2 controlPc).map fun e => (e, t.1)

/-! ### Parsing -/

section parsing

variable {bytes rest : List UInt8} {f : RuntimeFunction} {fs : List RuntimeFunction}

/-- The fields fit. -/
def RuntimeFunction.Fits (e : RuntimeFunction) : Prop :=
  e.beginAddress < 2 ^ 32 ∧ e.endAddress < 2 ^ 32 ∧ e.unwindData < 2 ^ 32

/-- A `.pdata` section: the functions, and then padding for so many more. -/
def pdata (fs : List RuntimeFunction) (sentinels : ℕ) : List UInt8 :=
  fs.flatMap RuntimeFunction.bytes ++ List.replicate (sentinels * RuntimeFunction.SIZE) 0

theorem RuntimeFunction.fromBytes_append (hb : bytes.length = SIZE) (i : ℕ) :
    fromBytes (bytes ++ rest) ((i + 1) * SIZE) = fromBytes rest (i * SIZE) := by
  have hdrop : (bytes ++ rest).drop ((i + 1) * SIZE) = rest.drop (i * SIZE) := by
    rw [Nat.succ_mul, Nat.add_comm, ← hb, List.drop_length_add_append]
  have hlen : (i + 1) * SIZE + SIZE ≤ (bytes ++ rest).length ↔
      i * SIZE + SIZE ≤ rest.length := by
    rw [List.length_append, hb, Nat.succ_mul]
    omega
  rw [fromBytes, fromBytes, hdrop]
  exact if_congr hlen rfl rfl

/-- One entry after the other. -/
theorem parsePdata_append (hb : bytes.length = RuntimeFunction.SIZE) :
    parsePdata (bytes ++ rest) = ((RuntimeFunction.fromBytes (bytes ++ rest) 0).bind fun e =>
      if e.isSentinel then none else some e).toList ++ parsePdata rest := by
  have hlen : (bytes ++ rest).length / RuntimeFunction.SIZE =
      rest.length / RuntimeFunction.SIZE + 1 := by
    rw [List.length_append, hb, Nat.add_comm, Nat.add_div_right _ (by decide)]
  rw [parsePdata, hlen, List.range_succ_eq_map, List.filterMap_cons, List.filterMap_map]
  simp only [Function.comp_def, Nat.succ_eq_add_one, RuntimeFunction.fromBytes_append hb,
    Nat.zero_mul]
  cases (RuntimeFunction.fromBytes (bytes ++ rest) 0).bind fun e =>
    if e.isSentinel then none else some e <;> rfl

theorem parsePdata_replicate (k : ℕ) :
    parsePdata (List.replicate (k * RuntimeFunction.SIZE) 0) = [] := by
  induction k with
  | zero => rfl
  | succ k ih =>
    rw [Nat.succ_mul, Nat.add_comm, List.replicate_add, parsePdata_append (List.length_replicate ..),
      ih]
    rfl

theorem RuntimeFunction.fromBytes_bytes (hf : f.Fits) : fromBytes (f.bytes ++ rest) 0 = some f := by
  obtain ⟨h1, h2, h3⟩ := hf
  have hlen : 0 + SIZE ≤ (f.bytes ++ rest).length := by
    rw [List.length_append]
    exact Nat.le_add_right SIZE _
  -- the twelve bytes are those of the entry, and its fields are found at 0, 4 and 8
  have htake : ((f.bytes ++ rest).drop 0).take SIZE = f.bytes := List.take_left' rfl
  have hb : f.bytes = toLe 4 f.beginAddress ++ (toLe 4 f.endAddress ++ toLe 4 f.unwindData) :=
    List.append_assoc _ _ _
  have h0 : f.bytes.take 4 = toLe 4 f.beginAddress := by rw [hb]; rfl
  have h4 : (f.bytes.drop 4).take 4 = toLe 4 f.endAddress := by rw [hb]; rfl
  have h8 : (f.bytes.drop 8).take 4 = toLe 4 f.unwindData := by rw [hb]; rfl
  rw [fromBytes, if_pos hlen]
  dsimp only
  rw [htake, h0, h4, h8, fromLe_toLe_of_lt h1, fromLe_toLe_of_lt h2, fromLe_toLe_of_lt h3]

theorem parsePdata_pdata (hf : ∀ f ∈ fs, f.Fits ∧ f.beginAddress < f.endAddress) (k : ℕ) :
    parsePdata (pdata fs k) = fs := by
  induction fs with
  | nil => exact parsePdata_replicate k
  | cons f fs ih =>
    obtain ⟨hfits, hlt⟩ := hf f List.mem_cons_self
    rw [pdata, List.flatMap_cons, List.append_assoc, parsePdata_append rfl,
      RuntimeFunction.fromBytes_bytes hfits]
    have hsent : f.isSentinel = false := decide_eq_false fun h => by omega
    rw [Option.bind_some, hsent]
    exact congrArg (f :: ·) (ih fun g hg => hf g (List.mem_cons_of_mem _ hg))

end parsing

/-! ### What a module finds -/

section lookup

variable {base pc : ℕ} {fs : List RuntimeFunction} {f : RuntimeFunction}

/-- No function covers the last address, where the ends of functions stick. -/
theorem RuntimeFunction.covers_iff : f.covers pc base = true ↔
    base + f.beginAddress ≤ pc ∧ pc < base + f.endAddress ∧ pc < 2 ^ 64 - 1 := by
  rw [covers, decide_eq_true_iff, beginVa, endVa, satAdd, satAdd]
  omega

/-- The search ends at the last function that starts at or before `x`, if there is one. -/
theorem exists_binarySearchByKey (h : Extents (·.beginAddress) (·.endAddress) fs) (x : ℕ) :
    ∃ r, Separates (·.beginAddress) fs x r ∧
      (r = 0 → binarySearchByKey (·.beginAddress) fs x = .error 0) ∧
      ∀ i e, r = i + 1 → fs[i]? = some e → binarySearchByKey (·.beginAddress) fs x =
        if e.beginAddress = x then .ok i else .error (i + 1) := by
  refine ⟨bisect (·.beginAddress) fs x fs.length 0 fs.length, ?_, ?_, ?_⟩
  · exact bisect_spec h x fs.length 0 fs.length (by omega) (Nat.zero_le _) le_rfl
      (fun k a hk _ => absurd hk (Nat.not_lt_zero k))
      (fun k a hk ha => absurd (List.getElem?_eq_some_iff.mp ha).1 (Nat.not_lt.mpr hk))
  · intro h0
    rw [binarySearchByKey, h0]
  · intro i e hi he
    rw [binarySearchByKey, hi]
    simp only [he, Option.map_some, Option.some.injEq]

/-- A function of the module is within the hull of the module. -/
theorem hull (h : Extents (·.beginAddress) (·.endAddress) fs) {first last : RuntimeFunction}
    (hfirst : fs.head? = some first) (hlast : fs.getLast? = some last) (hf : f ∈ fs) :
    first.beginAddress ≤ f.beginAddress ∧ f.endAddress ≤ last.endAddress := by
  have hl : last ∈ fs := List.mem_of_getLast? hlast
  obtain ⟨i, hi, rfl⟩ := List.getElem_of_mem hf
  have hget := List.getElem?_eq_getElem hi
  rw [List.head?_eq_getElem?] at hfirst
  rw [List.getLast?_eq_getElem?] at hlast
  refine ⟨h.lo_mono hfirst hget (Nat.zero_le i), ?_⟩
  have hle := h.lo_mono hget hlast (by omega)
  have hpos := h.pos _ hl
  rcases h.trichotomy hf hl with he | he | he
  · rw [← he]
  · omega
  · omega

/-- A module finds just the function that covers the address. -/
theorem lookupInModule_eq_some_iff (h : Extents (·.beginAddress) (·.endAddress) fs)
    (hfit : ∀ e ∈ fs, e.Fits) :
    lookupInModule base fs pc = some f ↔ f ∈ fs ∧ f.covers pc base = true := by
  rw [RuntimeFunction.covers_iff, lookupInModule]
  rcases hfirst : fs.head? with _ | first
  · rw [List.head?_eq_none_iff.mp hfirst]
    simp
  rcases hlast : fs.getLast? with _ | last
  · rw [List.getLast?_eq_none_iff.mp hlast]
    simp
  have hin := fun hf : f ∈ fs => hull h hfirst hlast hf
  have hlfit := (hfit last (List.mem_of_getLast? hlast)).2.1
  dsimp only
  rw [RuntimeFunction.beginVa, RuntimeFunction.endVa, satAdd, satAdd]
  split_ifs with hout
  · -- outside the hull there is no function
    refine ⟨False.elim, ?_⟩
    rintro ⟨hf, h1, h2, h3⟩
    have := hin hf
    omega
  · -- the key is the distance from the base
    have hkey : (pc - base) % 2 ^ 32 = pc - base := Nat.mod_eq_of_lt (by omega)
    have hbase : base ≤ pc := by omega
    rw [hkey]
    obtain ⟨r, hs, hnone, hsome⟩ := exists_binarySearchByKey h (pc - base)
    have hfound : f ∈ fs ∧ base + f.beginAddress ≤ pc ∧ pc < base + f.endAddress ∧
        pc < 2 ^ 64 - 1 ↔ ∃ i, r = i + 1 ∧ fs[i]? = some f ∧ pc - base < f.endAddress := by
      constructor
      · rintro ⟨hf, h1, h2, -⟩
        obtain ⟨i, hi, hget⟩ := h.getElem?_pred_of_separates hs hf (x := pc - base) (by omega)
        exact ⟨i, hi, hget, by omega⟩
      · rintro ⟨i, hi, hget, hlt⟩
        have hle : f.beginAddress ≤ pc - base := hs.2.1 i f (by omega) hget
        exact ⟨List.mem_of_getElem? hget, by omega, by omega, by omega⟩
    rw [hfound]
    rcases r with _ | i
    · rw [hnone rfl]
      simp
    · obtain ⟨e, he⟩ : ∃ e, fs[i]? = some e := ⟨_, List.getElem?_eq_getElem hs.1⟩
      have hpos : e.beginAddress < e.endAddress := h.pos e (List.mem_of_getElem? he)
      rw [hsome i e rfl he]
      by_cases hb : e.beginAddress = pc - base
      · -- a function that starts at the address covers it
        rw [if_pos hb]
        simp only [he, Nat.add_right_cancel_iff, Option.some.injEq]
        constructor
        · rintro rfl
          exact ⟨i, rfl, he, by omega⟩
        · rintro ⟨j, rfl, hj, -⟩
          exact Option.some.inj (he.symm.trans hj)
      · rw [if_neg hb]
        simp only [he, Option.bind_some, Nat.add_right_cancel_iff]
        split_ifs with hlt
        · constructor
          · rintro ⟨⟩
            exact ⟨i, rfl, he, hlt⟩
          · rintro ⟨j, rfl, hj, -⟩
            exact he.symm.trans hj
        · refine ⟨False.elim, ?_⟩
          rintro ⟨j, rfl, hj, hj'⟩
          obtain rfl := Option.some.inj (he.symm.trans hj)
          exact absurd hj' hlt

end lookup

/-! ### What all modules find -/

/-- A module with a `.pdata` section as linkers write it: its functions, non-empty and in order, and
then padding. -/
structure PdataModule where
  /-- Where the module is. -/
  base : ℕ
  /-- Its functions. -/
  functions : List RuntimeFunction
  /-- Number of entries of padding. -/
  sentinels : ℕ
  /-- The fields of every function fit. -/
  fits : ∀ f ∈ functions, f.Fits
  /-- No function is empty, and each ends before the next one starts. -/
  extents : Extents (·.beginAddress) (·.endAddress) functions

namespace PdataModule

/-- The bytes of the section. -/
def bytes (m : PdataModule) : List UInt8 := pdata m.functions m.sentinels

/-- The function table that the section is read as. -/
def table (m : PdataModule) : ℕ × List RuntimeFunction := (m.base, parsePdata m.bytes)

theorem table_eq (m : PdataModule) : m.table = (m.base, m.functions) := by
  rw [table, bytes, parsePdata_pdata fun f hf => ⟨m.fits f hf, m.extents.pos f hf⟩]

/-- No address is in functions of both. -/
def Apart (m n : PdataModule) : Prop :=
  ∀ f ∈ m.functions, ∀ g ∈ n.functions, ∀ va, ¬ (f.covers va m.base ∧ g.covers va n.base)

end PdataModule

/-- **Just the function that covers the address is found**, with the base of its module, whichever
order the modules are asked in. -/
theorem lookupFunctionEntry_eq_some_iff {ms : List PdataModule}
    (hms : ms.Pairwise PdataModule.Apart) (pc : ℕ) (f : RuntimeFunction) (base : ℕ) :
    lookupFunctionEntry (ms.map PdataModule.table) pc = some (f, base) ↔
      ∃ m ∈ ms, m.base = base ∧ f ∈ m.functions ∧ f.covers pc base := by
  induction ms with
  | nil => simp [lookupFunctionEntry]
  | cons m ms ih =>
    obtain ⟨hm, hms⟩ := List.pairwise_cons.mp hms
    have hfirst (g : RuntimeFunction) : lookupInModule m.base m.functions pc = some g ↔
        g ∈ m.functions ∧ g.covers pc m.base = true :=
      lookupInModule_eq_some_iff m.extents m.fits
    rw [List.map_cons, lookupFunctionEntry, List.findSome?_cons, m.table_eq]
    rcases hl : lookupInModule m.base m.functions pc with _ | g
    · -- the first module does not have it
      have hno : ¬ (f ∈ m.functions ∧ f.covers pc m.base) := fun h => by
        rw [(hfirst f).mpr h] at hl
        exact Option.some_ne_none f hl
      rw [Option.map_none]
      refine (ih hms).trans ⟨fun ⟨n, hn, h⟩ => ⟨n, List.mem_cons_of_mem _ hn, h⟩, ?_⟩
      rintro ⟨n, hn, rfl, hf⟩
      rcases List.mem_cons.mp hn with rfl | hn
      · exact absurd hf hno
      · exact ⟨n, hn, rfl, hf⟩
    · -- the first module has it, so that no other one does
      obtain ⟨hg, hcov⟩ := (hfirst g).mp hl
      rw [Option.map_some, Option.some.injEq, Prod.mk.injEq]
      constructor
      · rintro ⟨rfl, rfl⟩
        exact ⟨m, List.mem_cons_self, rfl, hg, hcov⟩
      · rintro ⟨n, hn, rfl, hf, hfcov⟩
        rcases List.mem_cons.mp hn with rfl | hn
        · exact ⟨Option.some.inj (hl.symm.trans ((hfirst f).mpr ⟨hf, hfcov⟩)), rfl⟩
        · exact absurd ⟨hcov, hfcov⟩ (hm n hn g hg f hf pc)

/-- A module at `0x140000000` with two functions and a gap between them. -/
def outerModule : PdataModule where
  base := 0x140000000
  functions := [⟨0x1000, 0x1040, 0x3000⟩, ⟨0x5000, 0x5080, 0x300c⟩]
  sentinels := 2
  fits := by unfold RuntimeFunction.Fits; decide
  extents := ⟨by decide, by decide⟩

/-- A module at `0x140001000` whose functions are in that gap. -/
def innerModule : PdataModule where
  base := 0x140001000
  functions := [⟨0x1000, 0x1020, 0x2000⟩]
  sentinels := 0
  fits := by unfold RuntimeFunction.Fits; decide
  extents := ⟨by decide, by decide⟩

theorem outerModule_apart_innerModule : outerModule.Apart innerModule := by
  intro f hf g hg va
  rw [RuntimeFunction.covers_iff, RuntimeFunction.covers_iff]
  simp only [outerModule, innerModule, List.mem_cons, List.not_mem_nil, or_false] at hf hg ⊢
  rcases hf with rfl | rfl <;> rw [hg] <;> simp only <;> omega

theorem lookupFunctionEntry_gap :
    lookupFunctionEntry ([outerModule, innerModule].map PdataModule.table) 0x14000201f =
      some (⟨0x1000, 0x1020, 0x2000⟩, 0x140001000) :=
  (lookupFunctionEntry_eq_some_iff
    (List.pairwise_pair.mpr outerModule_apart_innerModule) _ _ _).mpr
    ⟨innerModule, by simp, rfl, by simp [innerModule], by decide⟩

end Wie
