import Wie.Eh.LsdaLayout

/-!
# What the search of an LSDA finds

The source tries the record that covers the address before the return address and, when nothing
comes of it, the record that covers the return address itself. In a chain of actions it looks at 32
records; a filter of zero and a null type catch anything, and a type that matches is preferred to
those.

## Main definitions

* `Lsda.siteOf` — the record that covers an address
* `Lsda.pick` — the filter chosen in a chain
* `Lsda.SearchRight` — the search as the personality routine has it
* `Lsda.SearchAsDesigned` — the search as the source has it

## Main results

* `matchLoop_at`, `siteLoop_at` — the two loops on what is laid out in memory
* `Lsda.searchAsDesigned` — the search of the source
* `Lsda.not_searchRight_samples` — where the personality routine would go elsewhere
-/

namespace Wie

variable {m : ByteMap}

/-! ### The header -/

theorem readByte_at (hu : m.UserSpace) {a n : ℕ} (h : m a = some (UInt8.ofNat n)) (hn : n < 256) :
    readByte m.read a = some (n, a + 1) := by
  have ha := hu.lt h
  rw [readByte_of (by omega) h, UInt8.toNat_ofNat', Nat.mod_eq_of_lt hn]

theorem Lsda.encByte_lt (e : Option DwEncoding) : Lsda.encByte e < 256 := by
  cases e with
  | none => decide
  | some e => exact e.byte_parts.2.2.2.2

namespace Lsda

variable {l : Lsda} {bases : LsdaBases} {va a tb b : ℕ}

/-- The header as the search has it. -/
def header (l : Lsda) (bases : LsdaBases) (tb cs len : ℕ) : LsdaHeader :=
  ⟨l.lpBase bases, encByte (l.types.map Prod.fst), tb, l.csEnc.byte, len, cs⟩

theorem readLpStart_at (hu : m.UserSpace) (h : l.LpStartAt m bases va a) :
    readLpStart m.read bases va = some (l.lpBase bases, a) := by
  obtain ⟨hbyte, h⟩ := h
  rw [readLpStart, readByte_at hu hbyte (encByte_lt _), lpBase]
  cases hl : l.lpStart with
  | none =>
    rw [hl] at h
    subst h
    rfl
  | some lp =>
    obtain ⟨e, p⟩ := lp
    rw [hl] at h
    obtain ⟨hcode, -, -, homit, -⟩ := e.byte_parts
    obtain ⟨raw, hread, happly⟩ := PointerAt.read hu h hcode homit
    have he : encByte (Option.map Prod.fst (some (e, p))) = e.byte := rfl
    simp only [Option.bind_eq_bind, Option.bind_some, he, if_pos homit, hread, happly]

theorem readTtype_at (hu : m.UserSpace) (h : l.TypesAt m a tb b) :
    readTtype m.read a = some (encByte (l.types.map Prod.fst), tb, b) := by
  obtain ⟨hbyte, h⟩ := h
  rw [readTtype, readByte_at hu hbyte (encByte_lt _)]
  cases hl : l.types with
  | none =>
    rw [hl] at h
    obtain ⟨rfl, rfl⟩ := h
    rfl
  | some t =>
    rw [hl] at h
    obtain ⟨off, hoff, rfl⟩ := h
    have homit := t.1.byte_parts.2.2.2.1
    have he : encByte (Option.map Prod.fst (some t)) = t.1.byte := rfl
    have hlt := hoff.lt
    have hend := hoff.end_le hu
    simp only [Option.bind_eq_bind, Option.bind_some, he, if_pos homit, readUleb128_at hu hoff,
      satAdd_of_lt (show b + off < 2 ^ 64 by omega)]

/-- **The header is read as it stands.** -/
theorem readHeader_at (hu : m.UserSpace) {len cs : ℕ} (hl : l.LpStartAt m bases va a)
    (ht : l.TypesAt m a tb b) (hb : m b = some (UInt8.ofNat l.csEnc.byte))
    (hlen : UlebAt m (b + 1) len cs) :
    readHeader m.read bases va = some (l.header bases tb cs len) := by
  rw [readHeader, readLpStart_at hu hl]
  simp only [Option.bind_eq_bind, Option.bind_some, readTtype_at hu ht,
    readByte_at hu hb l.csEnc.byte_parts.2.2.2.2, readUleb128_at hu hlen, header]

end Lsda

/-! ### The call-site table -/

/-- A field of a record: a number that is not negative. -/
theorem readField_at (hu : m.UserSpace) {f : DwFormat} (hf : f ≠ .sleb128) {a n b : ℕ}
    (hn : n < 2 ^ 64) (h : RawAt m f a n b) : readField m.read f.code a = some (n, b) := by
  rw [readField]
  by_cases h1 : f = .uleb128
  · subst h1
    obtain ⟨k, hk, hu'⟩ := h
    rw [if_pos (show DwFormat.uleb128.code = dw_eh_pe.ULEB128 from rfl), readUleb128_at hu hu',
      Int.ofNat.inj hk]
  · rw [if_neg (dwFormatSize_code f ⟨h1, hf⟩).2.2.1,
      readEncodedValue_at hu f.code_parts.1 f.code_parts.2 h (fun _ => Int.natCast_nonneg n),
      asU64_of_nonneg (by omega) (by omega)]
    rfl

theorem RawAt.lt_end {f : DwFormat} {a b : ℕ} {z : ℤ} (h : RawAt m f a z b) : a < b := by
  by_cases h1 : f = .uleb128
  · subst h1
    obtain ⟨n, -, hn⟩ := h
    exact hn.lt_end
  by_cases h2 : f = .sleb128
  · subst h2
    exact SlebAt.lt_end h
  obtain ⟨-, -, rfl⟩ := (rawAt_fixed ⟨h1, h2⟩).mp h
  have := size_cases ⟨h1, h2⟩
  omega

theorem SiteAt.lt_end {f : DwFormat} {a b : ℕ} {s : RawSite} (h : SiteAt m f a s b) : a < b := by
  obtain ⟨a₁, a₂, a₃, h1, h2, h3, h4⟩ := h
  exact h1.lt_end.trans (h2.lt_end.trans (h3.lt_end.trans h4.lt_end))

/-- The numbers of a record fit in 64 bits. -/
def RawSite.Fits (s : RawSite) : Prop := s.start < 2 ^ 64 ∧ s.len < 2 ^ 64 ∧ s.pad < 2 ^ 64

theorem readSite_at (hu : m.UserSpace) {f : DwFormat} (hf : f ≠ .sleb128) {a b : ℕ} {s : RawSite}
    (hs : s.Fits) (h : SiteAt m f a s b) : readSite m.read f.code a = some (s, b) := by
  obtain ⟨a₁, a₂, a₃, h1, h2, h3, h4⟩ := h
  have hcheck : f.code = dw_eh_pe.ULEB128 ∨ ∃ n, dwFormatSize f.code = some n := by
    by_cases h1 : f = .uleb128
    · exact .inl (congrArg DwFormat.code h1)
    · exact .inr ⟨_, (dwFormatSize_code f ⟨h1, hf⟩).1⟩
  rw [readSite]
  rcases hcheck with hc | ⟨n, hn⟩
  · simp only [hc, ne_eq, not_true_eq_false, if_false]
    rw [← hc]
    simp only [readField_at hu hf hs.1 h1, readField_at hu hf hs.2.1 h2,
      readField_at hu hf hs.2.2 h3, readUleb128_at hu h4, Option.bind_eq_bind, Option.bind_some]
  · simp only [hn, readField_at hu hf hs.1 h1, readField_at hu hf hs.2.1 h2,
      readField_at hu hf hs.2.2 h3, readUleb128_at hu h4, Option.bind_eq_bind, Option.bind_some]
    split <;> rfl

theorem SitesAt.le_end {f : DwFormat} {ss : List CallSite} : ∀ {a b : ℕ}, SitesAt m f a ss b →
    a + ss.length ≤ b := by
  induction ss with
  | nil => exact fun h => Nat.le_of_eq h
  | cons s ss ih =>
    intro a b h
    obtain ⟨a', h1, h2⟩ := h
    have := h1.lt_end
    have := ih h2
    rw [List.length_cons]
    omega

/-- **The loop over the call-site table** goes through the records. -/
theorem siteLoop_at (hu : m.UserSpace) {f : DwFormat} (hf : f ≠ .sleb128)
    (pick : RawSite → Option LandingPadMatch) {b : ℕ} {ss : List CallSite} :
    ∀ {rounds a : ℕ}, (∀ s ∈ ss, s.Fits) → SitesAt m f a ss b → b - a ≤ rounds →
      siteLoop m.read f.code b pick rounds a = ss.findSome? fun s => pick s.toRawSite := by
  induction ss with
  | nil =>
    intro rounds a _ h _
    obtain rfl : a = b := h
    cases rounds with
    | zero => rfl
    | succ rounds => rw [siteLoop, if_neg (lt_irrefl a), List.findSome?_nil]
  | cons s ss ih =>
    intro rounds a hs h hr
    have hlt := SitesAt.le_end h
    rw [List.length_cons] at hlt
    obtain ⟨a', h1, h2⟩ := h
    have ha := h1.lt_end
    cases rounds with
    | zero => omega
    | succ rounds =>
      rw [siteLoop, if_pos (show a < b by omega), readSite_at hu hf (hs s (.head _)) h1,
        List.findSome?_cons]
      simp only [Option.bind_eq_bind, Option.bind_some]
      cases pick s.toRawSite with
      | none => exact ih (fun t ht => hs t (.tail _ ht)) h2 (by omega)
      | some r => rfl

/-! ### Chains of actions -/

namespace Lsda

variable {l : Lsda} {bases : LsdaBases} {table tb ti : ℕ}

/-- The type that a positive filter stands for. -/
def typeOf (l : Lsda) (filter : ℤ) : Option ℕ := l.types.map fun t => t.2 filter.toNat

/-- The filter stands for the type thrown. -/
def Typed (l : Lsda) (ti : ℕ) (filter : ℤ) : Prop :=
  0 < filter ∧ ti ≠ 0 ∧ l.typeOf filter = some ti

/-- The filter stands for any type: it is zero or its type is null. -/
def CatchesAll (l : Lsda) (filter : ℤ) : Prop :=
  filter = 0 ∨ 0 < filter ∧ l.typeOf filter = some 0

instance (l : Lsda) (ti : ℕ) : DecidablePred (l.Typed ti) :=
  fun _ => inferInstanceAs (Decidable (_ ∧ _ ∧ _))

instance (l : Lsda) : DecidablePred l.CatchesAll :=
  fun _ => inferInstanceAs (Decidable (_ ∨ _ ∧ _))

/-- The filter chosen in a chain: the first for the type thrown, or else the first for any type. -/
def pick (l : Lsda) (ti : ℕ) (chain : List ℤ) : Option ℤ :=
  (chain.find? (l.Typed ti)).or (chain.find? l.CatchesAll)

/-- What `match_action` knows. -/
def env (l : Lsda) (m : ByteMap) (bases : LsdaBases) (table tb ti : ℕ) : ActionEnv :=
  ⟨m.read, bases, table, tb, encByte (l.types.map Prod.fst), some ti⟩

theorem resolveTtype_at (hu : m.UserSpace) (htb : tb < 2 ^ 64) {filter : ℤ} (h0 : 0 < filter)
    (h : l.FilterAt m bases tb filter) :
    resolveTtype m.read bases tb (encByte (l.types.map Prod.fst)) filter.toNat =
      l.typeOf filter := by
  obtain ⟨e, types, hl, hfix, hle, b, hp⟩ := h h0
  obtain ⟨hcode, -, -, homit, -⟩ := e.byte_parts
  obtain ⟨hsize, -, hu', hs'⟩ := dwFormatSize_code e.format hfix
  have hpos : e.format.size ≠ 0 := by rcases size_cases hfix with h | h | h <;> omega
  have he : encByte (l.types.map Prod.fst) = e.byte := by rw [hl]; rfl
  have hread := PointerAt.read hu hp e.format.code_parts.1 e.format.code_parts.2
  obtain ⟨raw, hraw, happ⟩ := hread
  rw [resolveTtype, he, if_neg (by omega)]
  simp only [hcode]
  rw [if_neg (by simp only [hu', hs', or_self, not_false_eq_true]), hsize, Option.getD_some,
    if_neg hpos, satMul, Nat.min_eq_left (by omega)]
  simp only [hraw, happ, Option.bind_eq_bind, Option.bind_some, typeOf, hl, Option.map_some]

/-- What one record does to the filter for any type that is kept. -/
theorem keep_eq (filter : ℤ) (catchAll : Option ℤ) :
    (if filter = 0 then catchAll.or (some 0)
      else if filter > 0 ∧ (if filter > 0 then l.typeOf filter else none) = some 0 then
        catchAll.or (some filter) else catchAll) =
      catchAll.or (if l.CatchesAll filter then some filter else none) := by
  unfold CatchesAll
  by_cases h0 : filter = 0
  · simp [h0]
  · by_cases hp : 0 < filter
    · simp only [h0, hp, true_and, false_or, if_false, if_true]
      split <;> simp
    · simp [h0, hp]

/-- A chain with the choice made in one more record. -/
theorem pick_cons (filter : ℤ) (catchAll : Option ℤ) (fs : List ℤ) (h : ¬ l.Typed ti filter) :
    (((filter :: fs).find? (l.Typed ti)).or (catchAll.or ((filter :: fs).find? l.CatchesAll))) =
      ((fs.find? (l.Typed ti)).or
        ((catchAll.or (if l.CatchesAll filter then some filter else none)).or
          (fs.find? l.CatchesAll))) := by
  rw [List.find?_cons_of_neg (by simpa using h), List.find?_cons]
  by_cases hc : l.CatchesAll filter
  · simp [hc]
  · simp [hc]

theorem ChainAt.cons_inv {a : ℕ} {filter : ℤ} {fs : List ℤ} (h : ChainAt m table a (filter :: fs)) :
    table ≤ a ∧ ∃ b next c, SlebAt m a filter b ∧ SlebAt m b next c ∧
      (next = 0 ∧ fs = [] ∨ next ≠ 0 ∧ ∃ a' : ℕ, (a' : ℤ) = b + next ∧ ChainAt m table a' fs) := by
  cases fs with
  | nil =>
    obtain ⟨ha, b, c, h1, h2⟩ := h
    exact ⟨ha, b, 0, c, h1, h2, .inl ⟨rfl, rfl⟩⟩
  | cons g fs =>
    obtain ⟨ha, b, next, c, a', h1, h2, h3, h4, h5⟩ := h
    exact ⟨ha, b, next, c, h1, h2, .inr ⟨h3, a', h4, h5⟩⟩

theorem ChainAt.lt (hu : m.UserSpace) {a : ℕ} {fs : List ℤ} (h : ChainAt m table a fs) :
    table ≤ a ∧ a < 2 ^ 63 := by
  cases fs with
  | nil => exact h.elim
  | cons filter fs =>
    obtain ⟨ha, b, next, c, h1, -⟩ := ChainAt.cons_inv h
    exact ⟨ha, h1.lt_end.trans_le (SlebAt.end_le hu h1)⟩

/-- **The loop over a chain of actions**, with the filter for any type kept so far. -/
theorem matchLoop_at (hu : m.UserSpace) (htb : tb < 2 ^ 64) (htable : 0 < table) {fs : List ℤ} :
    ∀ {rounds a : ℕ} {catchAll : Option ℤ}, ChainAt m table a fs →
      (∀ filter ∈ fs, l.FilterAt m bases tb filter) →
      (l.env m bases table tb ti).matchLoop rounds catchAll (a - table + 1) =
        some (((fs.take rounds).find? (l.Typed ti)).or
          (catchAll.or ((fs.take rounds).find? l.CatchesAll))) := by
  induction fs with
  | nil => exact fun h => h.elim
  | cons filter fs ih =>
    intro rounds a catchAll h hf
    obtain ⟨hle, hlt⟩ := ChainAt.lt hu h
    obtain ⟨-, b, next, c, h1, h2, hnext⟩ := ChainAt.cons_inv h
    have hb := h2.lt_end.trans_le (SlebAt.end_le hu h2)
    cases rounds with
    | zero => simp [ActionEnv.matchLoop]
    | succ rounds =>
      have hrec : satAdd table (a - table + 1 - 1) = a := by
        rw [Nat.add_sub_cancel, satAdd_of_lt (by omega)]
        omega
      have hslot : (if filter > 0 then resolveTtype m.read bases tb
          (encByte (l.types.map Prod.fst)) filter.toNat else none) =
          if filter > 0 then l.typeOf filter else none :=
        if_ctx_congr Iff.rfl (fun h0 => resolveTtype_at hu htb h0 (hf filter (.head _)))
          fun _ => rfl
      have htyped : (filter > 0 ∧ ∃ entry ∈ (if filter > 0 then l.typeOf filter else none),
          entry ≠ 0 ∧ ∀ t ∈ some ti, entry = t) ↔ l.Typed ti filter := by
        unfold Typed
        constructor
        · rintro ⟨h0, entry, he, hne, ht⟩
          rw [if_pos h0] at he
          obtain rfl := ht ti rfl
          exact ⟨h0, hne, he⟩
        · rintro ⟨h0, hne, he⟩
          exact ⟨h0, ti, by rw [if_pos h0]; exact he, hne, fun t ht => Option.some.inj ht⟩
      rw [ActionEnv.matchLoop, List.take_succ_cons]
      simp only [env, hrec, readSleb128_at hu h1, readSleb128_at hu h2, Option.bind_eq_bind,
        Option.bind_some, hslot, htyped, keep_eq]
      by_cases ht : l.Typed ti filter
      · rw [if_pos ht, List.find?_cons_of_pos (by simpa using ht)]
        rfl
      rw [if_neg ht, pick_cons filter catchAll _ ht]
      rcases hnext with ⟨rfl, rfl⟩ | ⟨hne, a', ha', hchain⟩
      · simp
      · obtain ⟨hle', hlt'⟩ := ChainAt.lt hu hchain
        have hb64 : asI64 b = b := if_pos hb
        have hmin : min (a' : ℤ) (2 ^ 63 - 1) = a' := by omega
        have hidx : satAdd (a' - table) 1 = a' - table + 1 := satAdd_of_lt (by omega)
        rw [if_neg hne, hb64, ← ha', hmin, if_neg (by omega), Int.toNat_natCast,
          if_neg (by omega), hidx]
        exact ih hchain fun g hg => hf g (.tail _ hg)

/-! ### The searches -/

/-- The range of a record covers an address. -/
def Covers (l : Lsda) (bases : LsdaBases) (p : ℕ) (s : CallSite) : Prop :=
  l.csBase bases + s.start ≤ p ∧ p < l.csBase bases + s.start + s.len

instance (l : Lsda) (bases : LsdaBases) (p : ℕ) : DecidablePred (l.Covers bases p) :=
  fun _ => inferInstanceAs (Decidable (_ ∧ _))

/-- The record whose range covers an address. -/
def siteOf (l : Lsda) (bases : LsdaBases) (p : ℕ) : Option CallSite :=
  l.sites.find? (l.Covers bases p)

/-- What the first search makes of a record that covers the address: nothing without a type table,
and no more than 32 actions are looked at. -/
def catchOf (l : Lsda) (bases : LsdaBases) (ti : ℕ) (s : CallSite) : Option LandingPadMatch :=
  if s.pad = 0 ∨ l.types = none then none
  else (l.pick ti (s.chain.take 32)).map fun f => ⟨l.csBase bases + s.pad, s.action, f⟩

/-- What the second search makes of a record that covers the address. -/
def cleanupOf (l : Lsda) (bases : LsdaBases) (s : CallSite) : Option LandingPadMatch :=
  if s.pad = 0 ∨ s.action ≠ 0 then none else some ⟨l.csBase bases + s.pad, 0, 0⟩

section

variable {s : CallSite} {len cs pc : ℕ}

theorem csBase_header : (l.header bases tb cs len).csBase = l.csBase bases := by
  have hcode : l.csEnc.byte &&& 0x0f = l.csEnc.format.code := l.csEnc.byte_parts.1
  rw [LsdaHeader.csBase, csBase]
  show (if l.csEnc.byte &&& 0x0f = dw_eh_pe.ABSPTR then 0 else l.lpBase bases) = _
  rw [hcode]
  refine if_congr ?_ rfl rfl
  cases l.csEnc.format <;> decide

theorem covers_header (hs : l.csBase bases + s.start + s.len < 2 ^ 64) (p : ℕ) :
    (l.header bases tb cs len).covers s.toRawSite p = decide (l.Covers bases p s) := by
  rw [LsdaHeader.covers, csBase_header, satAdd_of_lt (show _ + s.start < 2 ^ 64 by omega),
    satAdd_of_lt hs]
  rfl

theorem landingVa_header (hs : l.csBase bases + s.pad < 2 ^ 64) :
    (l.header bases tb cs len).landingVa s.toRawSite = l.csBase bases + s.pad := by
  rw [LsdaHeader.landingVa, csBase_header, satAdd_of_lt hs]

theorem matchAction_at (hu : m.UserSpace) (htb : tb < 2 ^ 64) (htable : 0 < table)
    (h : l.ActionsAt m bases tb table s) :
    (l.env m bases table tb ti).matchAction s.action = l.pick ti (s.chain.take 32) := by
  obtain ⟨hchain, hf⟩ := h
  rw [ActionEnv.matchAction]
  by_cases h0 : s.action = 0
  · rw [if_pos h0] at hchain
    rw [if_pos h0, hchain]
    rfl
  · rw [if_neg h0] at hchain
    have hidx : s.action = table + (s.action - 1) - table + 1 := by omega
    rw [if_neg h0, hidx, matchLoop_at hu htb htable hchain hf]
    rfl

theorem catchSite_at (hu : m.UserSpace) (htb : tb < 2 ^ 64) (htable : 0 < table)
    (h : l.ActionsAt m bases tb table s) (h1 : l.csBase bases + s.start + s.len < 2 ^ 64)
    (h2 : l.csBase bases + s.pad < 2 ^ 64) :
    catchSite (l.env m bases table tb ti) (l.header bases tb cs len) pc s.toRawSite =
      if l.Covers bases (pc - 1) s ∨ l.Covers bases pc s then l.catchOf bases ti s else none := by
  rw [catchSite, covers_header h1, covers_header h1, landingVa_header h2,
    matchAction_at hu htb htable h, catchOf]
  by_cases hpad : s.pad = 0
  · simp [hpad]
  by_cases hc : l.Covers bases (pc - 1) s ∨ l.Covers bases pc s
  · have hva : ¬ l.csBase bases + s.pad = 0 := by omega
    have henc : (l.header bases tb cs len).ttypeEnc = dw_eh_pe.OMIT ↔ l.types = none := by
      show encByte (l.types.map Prod.fst) = dw_eh_pe.OMIT ↔ _
      cases l.types with
      | none => exact ⟨fun _ => rfl, fun _ => rfl⟩
      | some t => exact ⟨fun h => absurd h t.1.byte_parts.2.2.2.1, fun h => by cases h⟩
    have hact : s.action = 0 → s.chain = [] := fun h0 => by
      have := h.1
      rwa [if_pos h0] at this
    simp only [decide_eq_true_eq, hpad, hc, not_true_eq_false, hva, henc, if_false, if_true,
      false_or]
    by_cases ha : s.action = 0
    · rw [if_pos ha, hact ha]
      split <;> rfl
    · rw [if_neg ha]
  · simp [hpad, hc]

theorem cleanupSite_at (h1 : l.csBase bases + s.start + s.len < 2 ^ 64)
    (h2 : l.csBase bases + s.pad < 2 ^ 64) :
    cleanupSite (l.header bases tb cs len) pc s.toRawSite =
      if l.Covers bases (pc - 1) s ∨ l.Covers bases pc s then l.cleanupOf bases s else none := by
  rw [cleanupSite, covers_header h1, covers_header h1, landingVa_header h2, cleanupOf]
  by_cases hpad : s.pad = 0 ∨ s.action ≠ 0
  · simp [hpad]
  have hva : ¬ l.csBase bases + s.pad = 0 := by omega
  by_cases hc : l.Covers bases (pc - 1) s ∨ l.Covers bases pc s
  · simp only [decide_eq_true_eq, hpad, hc, not_true_eq_false, hva, if_false, if_true]
  · simp [hpad, hc]

end

/-- In a sorted table, the first record that makes something of one of two neighbouring addresses:
the record of the lower one comes first. -/
theorem findSome_covers {sites : List CallSite} {p q : ℕ} (hp : p ≤ q) (hq : q ≤ p + 1)
    (f : CallSite → Option LandingPadMatch)
    (hs : sites.Pairwise fun s t => s.start + s.len ≤ t.start) :
    sites.findSome? (fun s => if l.Covers bases p s ∨ l.Covers bases q s then f s else none) =
      ((sites.find? (l.Covers bases p)).bind f).or ((sites.find? (l.Covers bases q)).bind f) := by
  induction sites with
  | nil => rfl
  | cons s ss ih =>
    obtain ⟨hlater, hs⟩ := List.pairwise_cons.mp hs
    -- a later record covers no address below the end of this one
    have hskip : ∀ r, r < l.csBase bases + s.start + s.len →
        ss.find? (l.Covers bases r) = none := by
      intro r hr
      refine List.find?_eq_none.mpr fun t ht hc => ?_
      have hc := of_decide_eq_true hc
      have := hlater t ht
      unfold Covers at hc
      omega
    rw [List.findSome?_cons, List.find?_cons, List.find?_cons, ih hs]
    by_cases hcp : l.Covers bases p s <;> by_cases hcq : l.Covers bases q s
    · simp only [hcp, hcq, or_self, if_true, decide_true, Option.bind_some]
      rw [hskip p hcp.2, hskip q hcq.2]
      cases f s <;> rfl
    · simp only [hcp, hcq, or_false, if_true, decide_true, decide_false, Option.bind_some]
      rw [hskip p hcp.2]
      cases f s <;> rfl
    · simp only [hcp, hcq, or_true, if_true, decide_true, decide_false, Option.bind_some]
      have hpq : p < l.csBase bases + s.start + s.len := by
        unfold Covers at hcq
        omega
      rw [hskip p hpq, hskip q hcq.2]
      cases f s <;> rfl
    · simp only [hcp, hcq, or_self, if_false, decide_false]

theorem findSome_congr {α β : Type*} {f g : α → Option β} {as : List α} (h : ∀ a ∈ as, f a = g a) :
    as.findSome? f = as.findSome? g := by
  induction as with
  | nil => rfl
  | cons a as ih =>
    rw [List.findSome?_cons, List.findSome?_cons, h a (.head _), ih fun b hb => h b (.tail _ hb)]

/-- What the search makes of the record of the address before `pc`, or else of that of `pc`. -/
def first {α : Type} (l : Lsda) (bases : LsdaBases) (pc : ℕ) (f : CallSite → Option α) : Option α :=
  ((l.siteOf bases (pc - 1)).bind f).or ((l.siteOf bases pc).bind f)

theorem map_first {α β : Type} (pc : ℕ) (f : CallSite → Option α) (g : α → β) :
    (l.first bases pc f).map g = l.first bases pc fun s => (f s).map g := by
  rw [first, first, Option.map_or, Option.map_bind, Option.map_bind]
  rfl

theorem first_eq_some {α : Type} {pc : ℕ} {f : CallSite → Option α} {x : α}
    (h : l.first bases pc f = some x) :
    ∃ s, (l.siteOf bases (pc - 1) = some s ∨ l.siteOf bases pc = some s) ∧ f s = some x := by
  rcases Option.or_eq_some_iff.mp h with h | ⟨-, h⟩
  · obtain ⟨s, hs, hf⟩ := Option.bind_eq_some_iff.mp h
    exact ⟨s, .inl hs, hf⟩
  · obtain ⟨s, hs, hf⟩ := Option.bind_eq_some_iff.mp h
    exact ⟨s, .inr hs, hf⟩

variable {va : ℕ}

/-- The loops of both searches. -/
theorem At.siteLoop (hu : m.UserSpace) (h : l.At m bases va) (pc : ℕ) :
    ∃ tb cs len, 0 < cs + len ∧ cs + len < 2 ^ 64 ∧ tb < 2 ^ 64 ∧
      readHeader m.read bases va = some (l.header bases tb cs len) ∧
      (∀ s ∈ l.sites, l.ActionsAt m bases tb (cs + len) s) ∧
      ∀ pick f, (∀ s ∈ l.sites, pick s.toRawSite =
          if l.Covers bases (pc - 1) s ∨ l.Covers bases pc s then f s else none) →
        Wie.siteLoop m.read (l.csEnc.byte &&& 0x0f) (cs + len) pick (cs + len - cs) cs =
          l.first bases pc f := by
  obtain ⟨a, tb, b, len, cs, hl, ht, hb, hf, hlen, hsites, hact⟩ := h.tables
  have hcs := hlen.lt_end
  have hend := hlen.end_le hu
  have hlt := hlen.lt
  have htb : tb < 2 ^ 64 := by
    have h2 := ht.2
    cases hty : l.types with
    | none =>
      rw [hty] at h2
      obtain ⟨rfl, -⟩ := h2
      decide
    | some t =>
      rw [hty] at h2
      obtain ⟨off, hoff, rfl⟩ := h2
      have := hoff.lt
      have := hoff.end_le hu
      omega
  refine ⟨tb, cs, len, by omega, by omega, htb, readHeader_at hu hl ht hb hlen, hact, ?_⟩
  intro pick f hpick
  have hfits : ∀ s ∈ l.sites, s.Fits := fun s hs => by
    have := h.bound s hs
    exact ⟨by omega, by omega, by omega⟩
  rw [l.csEnc.byte_parts.1, siteLoop_at hu hf pick hfits hsites le_rfl, first, siteOf, siteOf,
    ← findSome_covers (Nat.sub_le pc 1) (by omega) f h.sorted]
  exact findSome_congr hpick

/-- **The first search.** -/
theorem findLandingPadEx_at (hu : m.UserSpace) (h : l.At m bases va) (pc ti : ℕ) :
    findLandingPadEx m.read va bases pc (some ti) = l.first bases pc (l.catchOf bases ti) := by
  obtain ⟨tb, cs, len, h0, h64, htb, hhead, hact, hloop⟩ := h.siteLoop hu pc
  rw [findLandingPadEx, hhead]
  simp only [Option.bind_eq_bind, Option.bind_some, header, satAdd_of_lt h64]
  exact hloop _ _ fun s hs =>
    catchSite_at hu htb h0 (hact s hs) (h.bound s hs).1 (h.bound s hs).2

/-- **The second search.** -/
theorem findCleanupLandingPad_at (hu : m.UserSpace) (h : l.At m bases va) (pc : ℕ) :
    findCleanupLandingPad m.read va bases pc = l.first bases pc (l.cleanupOf bases) := by
  obtain ⟨tb, cs, len, h0, h64, htb, hhead, hact, hloop⟩ := h.siteLoop hu pc
  rw [findCleanupLandingPad, hhead]
  simp only [Option.bind_eq_bind, Option.bind_some, header, satAdd_of_lt h64]
  exact hloop _ _ fun s hs => cleanupSite_at (h.bound s hs).1 (h.bound s hs).2

/-! ### Which handler is right -/

/-- The filter stands for the type thrown or for any type; a filter of zero is a cleanup. -/
def Handles (l : Lsda) (ti : ℕ) (filter : ℤ) : Prop :=
  0 < filter ∧ (l.typeOf filter = some ti ∨ l.typeOf filter = some 0)

instance (l : Lsda) (ti : ℕ) : DecidablePred (l.Handles ti) :=
  fun _ => inferInstanceAs (Decidable (_ ∧ (_ ∨ _)))

/-- **The search of the personality routine**: the record of the call decides, by the first action
that handles the exception. -/
structure SearchRight (l : Lsda) (m : ByteMap) (bases : LsdaBases) (va pc ti : ℕ) : Prop where
  /-- The landing pad of a handler, with its filter. -/
  handler : (findLandingPadEx m.read va bases pc (some ti)).map
      (fun r => (r.landingPad, r.switchValue)) =
    (l.siteOf bases (pc - 1)).bind fun s =>
      if s.pad = 0 then none
      else (s.chain.find? (l.Handles ti)).map fun f => (l.csBase bases + s.pad, f)
  /-- The landing pad of a cleanup. -/
  cleanup : (findCleanupLandingPad m.read va bases pc).map LandingPadMatch.landingPad =
    (l.siteOf bases (pc - 1)).bind fun s =>
      if s.pad = 0 ∨ ∃ f ∈ s.chain, l.Handles ti f then none else some (l.csBase bases + s.pad)
  /-- At most one of the two is found. -/
  one : ¬ ((findLandingPadEx m.read va bases pc (some ti)).isSome ∧
    (findCleanupLandingPad m.read va bases pc).isSome)

/-- The filter that the search of the source chooses for a record. -/
def chosen (l : Lsda) (ti : ℕ) (s : CallSite) : Option ℤ :=
  if l.types = none then none else l.pick ti (s.chain.take 32)

/-- **The search of the source**: where the record of the call has no handler, the record of the
return address is tried. Nothing is said of the second search and records whose chain has actions
but no handler. -/
structure SearchAsDesigned (l : Lsda) (m : ByteMap) (bases : LsdaBases) (va pc ti : ℕ) : Prop where
  /-- The landing pad of a handler, with its filter. -/
  handler : (findLandingPadEx m.read va bases pc (some ti)).map
      (fun r => (r.landingPad, r.switchValue)) =
    l.first bases pc fun s =>
      if s.pad = 0 then none else (l.chosen ti s).map fun f => (l.csBase bases + s.pad, f)
  /-- A cleanup is the landing pad of a record without a handler. -/
  cleanup_sound : ∀ r, findCleanupLandingPad m.read va bases pc = some r →
    ∃ s, (l.siteOf bases (pc - 1) = some s ∨ l.siteOf bases pc = some s) ∧ s.pad ≠ 0 ∧
      l.chosen ti s = none ∧ r.landingPad = l.csBase bases + s.pad
  /-- The cleanup of a record without actions: that of the call, or, if this has no landing pad,
  that of the return address. -/
  cleanup_found : ∀ s, s.pad ≠ 0 → s.action = 0 →
    (l.siteOf bases (pc - 1) = some s ∨ (∀ t, l.siteOf bases (pc - 1) = some t → t.pad = 0) ∧
      l.siteOf bases pc = some s) →
    (findCleanupLandingPad m.read va bases pc).map LandingPadMatch.landingPad =
      some (l.csBase bases + s.pad)
  /-- When only one record is tried, at most one of the two is found. -/
  one : (∀ s t, l.siteOf bases (pc - 1) = some s → l.siteOf bases pc = some t → s = t) →
    ¬ ((findLandingPadEx m.read va bases pc (some ti)).isSome ∧
      (findCleanupLandingPad m.read va bases pc).isSome)

/-- A record without actions has no handler. -/
theorem At.chosen_eq_none (h : l.At m bases va) {s : CallSite} (hs : s ∈ l.sites)
    (h0 : s.action = 0) : l.chosen ti s = none := by
  obtain ⟨a, tb, b, len, cs, -, -, -, -, -, -, hact⟩ := h.tables
  have hchain := (hact s hs).1
  rw [if_pos h0] at hchain
  rw [chosen, hchain]
  split <;> rfl

theorem siteOf_mem {p : ℕ} {s : CallSite} (h : l.siteOf bases p = some s) : s ∈ l.sites :=
  List.mem_of_find?_eq_some h

theorem catchOf_eq_chosen (s : CallSite) :
    (l.catchOf bases ti s).map (fun r => (r.landingPad, r.switchValue)) =
      if s.pad = 0 then none else (l.chosen ti s).map fun f => (l.csBase bases + s.pad, f) := by
  rw [catchOf, chosen]
  by_cases h0 : s.pad = 0
  · simp [h0]
  by_cases ht : l.types = none
  · simp [h0, ht]
  · simp only [h0, ht, or_self, if_false, Option.map_map]
    rfl

theorem cleanupOf_eq_some {s : CallSite} {r : LandingPadMatch}
    (h : l.cleanupOf bases s = some r) :
    s.pad ≠ 0 ∧ s.action = 0 ∧ r = ⟨l.csBase bases + s.pad, 0, 0⟩ := by
  rw [cleanupOf] at h
  split at h
  · cases h
  · rename_i hn
    push Not at hn
    exact ⟨hn.1, hn.2, (Option.some.inj h).symm⟩

/-- **What the two searches find** in a laid out LSDA. -/
theorem searchAsDesigned (hu : m.UserSpace) (h : l.At m bases va) (pc ti : ℕ) :
    l.SearchAsDesigned m bases va pc ti := by
  have hex := findLandingPadEx_at hu h pc ti
  have hcl := findCleanupLandingPad_at hu h pc
  refine ⟨?_, ?_, ?_, ?_⟩
  · rw [hex, map_first]
    exact congrArg (l.first bases pc) (funext catchOf_eq_chosen)
  · intro r hr
    rw [hcl] at hr
    obtain ⟨s, hs, hf⟩ := first_eq_some hr
    obtain ⟨hpad, hact, rfl⟩ := cleanupOf_eq_some hf
    have hmem : s ∈ l.sites := hs.elim siteOf_mem siteOf_mem
    exact ⟨s, hs, hpad, h.chosen_eq_none hmem hact, rfl⟩
  · intro s hpad hact hs
    have hof : l.cleanupOf bases s = some ⟨l.csBase bases + s.pad, 0, 0⟩ :=
      if_neg (by simp [hpad, hact])
    rcases hs with hs | ⟨hnone, hs⟩
    · rw [hcl, first, hs, Option.bind_some, hof]
      rfl
    · have hskip : (l.siteOf bases (pc - 1)).bind (l.cleanupOf bases) = none :=
        Option.bind_eq_none_iff.mpr fun t ht => if_pos (.inl (hnone t ht))
      rw [hcl, first, hskip, hs, Option.none_or, Option.bind_some, hof]
      rfl
  · rintro hone ⟨h1, h2⟩
    obtain ⟨r, hr⟩ := Option.isSome_iff_exists.mp h1
    obtain ⟨r', hr'⟩ := Option.isSome_iff_exists.mp h2
    rw [hex] at hr
    rw [hcl] at hr'
    obtain ⟨s, hs, hf⟩ := first_eq_some hr
    obtain ⟨t, ht, hg⟩ := first_eq_some hr'
    -- both come from one record
    have hst : s = t := by
      rcases hs with hs | hs <;> rcases ht with ht | ht
      · exact Option.some.inj (hs.symm.trans ht)
      · exact hone s t hs ht
      · exact (hone t s ht hs).symm
      · exact Option.some.inj (hs.symm.trans ht)
    subst hst
    obtain ⟨hpad, hact, -⟩ := cleanupOf_eq_some hg
    have hmem : s ∈ l.sites := hs.elim siteOf_mem siteOf_mem
    have hnone : (l.catchOf bases ti s).map (fun r => (r.landingPad, r.switchValue)) = _ :=
      catchOf_eq_chosen s
    rw [hf, if_neg hpad, h.chosen_eq_none hmem hact] at hnone
    cases hnone

end Lsda

/-! ### Samples -/

/-- Bytes at an address and nothing else. -/
def bytesAt (va : ℕ) (bs : List UInt8) : ByteMap := fun x => if va ≤ x then bs[x - va]? else none

theorem bytesAt_userSpace {va : ℕ} {bs : List UInt8} (h : va + bs.length ≤ 2 ^ 63) :
    (bytesAt va bs).UserSpace := by
  intro x hx
  rw [bytesAt, if_pos (by omega), List.getElem?_eq_none (by omega)]

theorem ulebAt_byte {a n : ℕ} (h : m a = some (UInt8.ofNat n)) (hn : n < 128) :
    UlebAt m a n (a + 1) :=
  ⟨[n], ⟨by simp, by simp, by simpa using hn⟩,
    ByteMap.holds_cons.mpr ⟨h, ByteMap.holds_nil⟩, by simp [ulebValue], rfl⟩

theorem slebAt_byte {a n : ℕ} {z : ℤ} (h : m a = some (UInt8.ofNat n)) (hn : n < 128)
    (hz : slebValue [n] = z) : SlebAt m a z (a + 1) :=
  ⟨[n], ⟨by simp, by simp, by simpa using hn⟩,
    ByteMap.holds_cons.mpr ⟨h, ByteMap.holds_nil⟩, hz.symm, rfl⟩

/-- Records whose fields take one byte. -/
theorem sitesAt_bytes {ss : List CallSite} : ∀ {a : ℕ},
    (∀ s ∈ ss, s.start < 128 ∧ s.len < 128 ∧ s.pad < 128 ∧ s.action < 128) →
      m.Holds a (ss.flatMap fun s => [s.start, s.len, s.pad, s.action].map UInt8.ofNat) →
        SitesAt m .uleb128 a ss (a + 4 * ss.length) := by
  induction ss with
  | nil => exact fun _ _ => rfl
  | cons s ss ih =>
    intro a hlt hm
    obtain ⟨h1, h2, h3, h4⟩ := hlt s (.head _)
    obtain ⟨hm, hrest⟩ := ByteMap.holds_append.mp hm
    obtain ⟨hm1, hm⟩ := ByteMap.holds_cons.mp hm
    obtain ⟨hm2, hm⟩ := ByteMap.holds_cons.mp hm
    obtain ⟨hm3, hm⟩ := ByteMap.holds_cons.mp hm
    obtain ⟨hm4, -⟩ := ByteMap.holds_cons.mp hm
    refine ⟨a + 4, ⟨a + 1, a + 2, a + 3, ⟨_, rfl, ulebAt_byte hm1 h1⟩, ⟨_, rfl, ulebAt_byte hm2 h2⟩,
      ⟨_, rfl, ulebAt_byte hm3 h3⟩, ulebAt_byte hm4 h4⟩, ?_⟩
    have := ih (fun t ht => hlt t (.tail _ ht)) hrest
    rw [List.length_cons, show a + 4 * (ss.length + 1) = a + 4 + 4 * ss.length by omega]
    exact this

/-- The types of the samples. -/
def sampleTypes : DwEncoding := ⟨.udata4, .absolute, false⟩

theorem pointerAt_udata4 {bases : LsdaBases} {a p : ℕ} (hp : p < 2 ^ 32)
    (h : m.Holds a (toLe 4 p)) : PointerAt m bases sampleTypes a p (a + 4) := by
  have hz := asU64_of_nonneg (z := p) (by omega) (by omega)
  have hrange : DwFormat.InRange .udata4 p := by
    show 0 ≤ (p : ℤ) ∧ (p : ℤ) < 2 ^ 32
    omega
  refine ⟨p, ⟨hrange, ?_, rfl⟩, nofun, ?_⟩
  · rw [hz]
    exact h
  · rw [Resolves]
    split
    · omega
    · show p = asU64 ((0 : ℕ) + p)
      simp [hz]

/-- The LSDA of a sample, its landing pads relative to the function. -/
def sample (types : ℕ → ℕ) (sites : List CallSite) : Lsda :=
  ⟨none, some (sampleTypes, types), ⟨.uleb128, .absolute, false⟩, sites⟩

/-- The bases of the samples. -/
def sampleBases : LsdaBases := ⟨0, 0x1000⟩

/-- The memory of a sample: its header, call-site table and the rest. -/
def sampleMem (sites : List CallSite) (off : ℕ) (rest : List UInt8) : ByteMap :=
  bytesAt 0x2000 ([0xff, 0x03, UInt8.ofNat off, 0x01, UInt8.ofNat (4 * sites.length)] ++
    (sites.flatMap fun s => [s.start, s.len, s.pad, s.action].map UInt8.ofNat) ++ rest)

/-- **A sample is laid out** when its actions are. -/
theorem sample_at {types : ℕ → ℕ} {sites : List CallSite} {off : ℕ} {rest : List UInt8}
    (hlt : ∀ s ∈ sites, s.start < 128 ∧ s.len < 128 ∧ s.pad < 128 ∧ s.action < 128)
    (hoff : off < 128) (hlen : 4 * sites.length < 128)
    (hsorted : sites.Pairwise fun s t => s.start + s.len ≤ t.start)
    (hact : ∀ s ∈ sites, (sample types sites).ActionsAt (sampleMem sites off rest) sampleBases
      (0x2003 + off) (0x2005 + 4 * sites.length) s) :
    (sample types sites).At (sampleMem sites off rest) sampleBases 0x2000 := by
  have hall : (sampleMem sites off rest).Holds 0x2000
      ([0xff, 0x03, UInt8.ofNat off, 0x01, UInt8.ofNat (4 * sites.length)] ++
        (sites.flatMap fun s => [s.start, s.len, s.pad, s.action].map UInt8.ofNat) ++ rest) := by
    intro i hi
    rw [sampleMem, bytesAt, if_pos (by omega), Nat.add_sub_cancel_left, List.getElem?_eq_getElem hi]
  obtain ⟨hall, -⟩ := ByteMap.holds_append.mp hall
  obtain ⟨hhead, hsites⟩ := ByteMap.holds_append.mp hall
  obtain ⟨h0, hhead⟩ := ByteMap.holds_cons.mp hhead
  obtain ⟨h1, hhead⟩ := ByteMap.holds_cons.mp hhead
  obtain ⟨h2, hhead⟩ := ByteMap.holds_cons.mp hhead
  obtain ⟨h3, hhead⟩ := ByteMap.holds_cons.mp hhead
  obtain ⟨h4, -⟩ := ByteMap.holds_cons.mp hhead
  refine ⟨⟨0x2001, 0x2003 + off, 0x2003, 4 * sites.length, 0x2005, ⟨h0, rfl⟩,
    ⟨h1, off, ulebAt_byte h2 hoff, rfl⟩, h3, nofun, ulebAt_byte h4 hlen,
    sitesAt_bytes hlt hsites, hact⟩, ?_, hsorted⟩
  intro s hs
  obtain ⟨hs1, hs2, hs3, -⟩ := hlt s hs
  have hbase : (sample types sites).csBase sampleBases = 0x1000 := rfl
  rw [hbase]
  omega

theorem chainAt_last {table a n : ℕ} {z : ℤ} (ht : table ≤ a) (h : m.Holds a [UInt8.ofNat n, 0])
    (hn : n < 128) (hz : slebValue [n] = z) : ChainAt m table a [z] := by
  obtain ⟨h1, h⟩ := ByteMap.holds_cons.mp h
  obtain ⟨h2, -⟩ := ByteMap.holds_cons.mp h
  exact ⟨ht, a + 1, a + 2, slebAt_byte h1 hn hz, slebAt_byte (n := 0) h2 (by decide) rfl⟩

theorem chainAt_link {table a n : ℕ} {z g : ℤ} {fs : List ℤ} (ht : table ≤ a)
    (h : m.Holds a [UInt8.ofNat n, 1]) (hn : n < 128) (hz : slebValue [n] = z)
    (hnext : ChainAt m table (a + 2) (g :: fs)) : ChainAt m table a (z :: g :: fs) := by
  obtain ⟨h1, h⟩ := ByteMap.holds_cons.mp h
  obtain ⟨h2, -⟩ := ByteMap.holds_cons.mp h
  refine ⟨ht, a + 1, 1, a + 2, a + 2, slebAt_byte h1 hn hz, slebAt_byte (n := 1) h2 (by decide) rfl,
    one_ne_zero, ?_, hnext⟩
  push_cast
  ring

/-- Actions that catch nothing, before a chain. -/
theorem chainAt_replicate {table a k : ℕ} {g : ℤ} {fs : List ℤ} (ht : table ≤ a)
    (h : m.Holds a (List.replicate k [(0x7f : UInt8), 1]).flatten)
    (hnext : ChainAt m table (a + 2 * k) (g :: fs)) :
    ChainAt m table a (List.replicate k (-1) ++ g :: fs) := by
  induction k generalizing a with
  | zero => exact hnext
  | succ k ih =>
    rw [List.replicate_succ, List.flatten_cons] at h
    obtain ⟨h1, h⟩ := ByteMap.holds_append.mp h
    have hrest := ih (by omega) h (by
      rwa [show a + [(0x7f : UInt8), 1].length + 2 * k = a + 2 * (k + 1) by simp; ring])
    have hcons : ∃ g' fs', List.replicate k (-1) ++ g :: fs = g' :: fs' := by
      cases k with
      | zero => exact ⟨g, fs, rfl⟩
      | succ k => exact ⟨-1, _, rfl⟩
    obtain ⟨g', fs', he⟩ := hcons
    rw [List.replicate_succ, List.cons_append, he]
    rw [he] at hrest
    exact chainAt_link (n := 0x7f) ht h1 (by decide) (by decide) hrest

theorem filterAt_sample {types : ℕ → ℕ} {sites : List CallSite} {tb : ℕ} {filter : ℤ}
    (h : 0 < filter → filter.toNat * 4 ≤ tb ∧ types filter.toNat < 2 ^ 32 ∧
      m.Holds (tb - filter.toNat * 4) (toLe 4 (types filter.toNat))) :
    (sample types sites).FilterAt m sampleBases tb filter := by
  intro h0
  obtain ⟨h1, h2, h3⟩ := h h0
  exact ⟨_, _, rfl, ⟨nofun, nofun⟩, h1, _, pointerAt_udata4 h2 h3⟩

namespace Lsda

/-- The type thrown in the samples, and the entries of their type tables. -/
def thrown : ℕ := 0x500

/-- A filter of zero, for a cleanup. -/
def zeroFilter : List CallSite := [⟨⟨0x3a, 5, 0x3f, 1⟩, [0]⟩]

/-- A handler for anything before one for the type thrown. -/
def catchAllFirst : List CallSite := [⟨⟨0x10, 5, 0x20, 1⟩, [1, 2]⟩]

/-- The types of its filters. -/
def catchAllTypes : ℕ → ℕ := fun n => if n = 1 then 0 else thrown

/-- A call that is the last instruction before a handled range. -/
def nextRange : List CallSite := [⟨⟨0x15, 5, 0x20, 1⟩, [1]⟩]

/-- A call that is the last instruction of a handled range, before a range with a cleanup. -/
def nextCleanup : List CallSite := [⟨⟨0x10, 5, 0x20, 1⟩, [1]⟩, ⟨⟨0x15, 5, 0x28, 0⟩, []⟩]

/-- A handler behind 32 other actions. -/
def longChain : List CallSite := [⟨⟨0x10, 5, 0x20, 1⟩, List.replicate 32 (-1) ++ [1]⟩]

/-- An action that handles nothing. -/
def noHandler : List CallSite := [⟨⟨0x10, 5, 0x20, 1⟩, [-1]⟩]

theorem zeroFilter_at : (sample (fun _ => thrown) zeroFilter).At (sampleMem zeroFilter 8 [0, 0])
    sampleBases 0x2000 := by
  refine sample_at (by decide) (by decide) (by decide) (by decide) ?_
  rw [zeroFilter, List.forall_mem_singleton]
  refine ⟨chainAt_last (n := 0) (by decide) (by decide) (by decide) rfl, ?_⟩
  rw [List.forall_mem_singleton]
  exact filterAt_sample nofun

theorem catchAllFirst_at : (sample catchAllTypes catchAllFirst).At
    (sampleMem catchAllFirst 18 ([1, 1, 2, 0] ++ toLe 4 thrown ++ toLe 4 0))
    sampleBases 0x2000 := by
  refine sample_at (by decide) (by decide) (by decide) (by decide) ?_
  rw [catchAllFirst, List.forall_mem_singleton]
  refine ⟨chainAt_link (n := 1) (by decide) (by decide) (by decide) rfl
    (chainAt_last (n := 2) (by decide) (by decide) (by decide) rfl), ?_⟩
  rw [List.forall_mem_cons, List.forall_mem_singleton]
  exact ⟨filterAt_sample fun _ => by decide, filterAt_sample fun _ => by decide +kernel⟩

theorem nextRange_at : (sample (fun _ => thrown) nextRange).At
    (sampleMem nextRange 12 ([1, 0] ++ toLe 4 thrown)) sampleBases 0x2000 := by
  refine sample_at (by decide) (by decide) (by decide) (by decide) ?_
  rw [nextRange, List.forall_mem_singleton]
  refine ⟨chainAt_last (n := 1) (by decide) (by decide) (by decide) rfl, ?_⟩
  rw [List.forall_mem_singleton]
  exact filterAt_sample fun _ => by decide

theorem nextCleanup_at : (sample (fun _ => thrown) nextCleanup).At
    (sampleMem nextCleanup 16 ([1, 0] ++ toLe 4 thrown)) sampleBases 0x2000 := by
  refine sample_at (by decide) (by decide) (by decide) (by decide) ?_
  rw [nextCleanup, List.forall_mem_cons, List.forall_mem_singleton]
  refine ⟨⟨chainAt_last (n := 1) (by decide) (by decide) (by decide) rfl, ?_⟩, rfl, nofun⟩
  rw [List.forall_mem_singleton]
  exact filterAt_sample fun _ => by decide

theorem longChain_at : (sample (fun _ => thrown) longChain).At
    (sampleMem longChain 76 ((List.replicate 32 [0x7f, 1]).flatten ++ [1, 0] ++ toLe 4 thrown))
    sampleBases 0x2000 := by
  refine sample_at (by decide) (by decide) (by decide) (by decide) ?_
  rw [longChain, List.forall_mem_singleton]
  refine ⟨chainAt_replicate (by decide) (by decide)
    (chainAt_last (n := 1) (by decide) (by decide) (by decide) rfl), fun f hf => ?_⟩
  rcases List.mem_append.mp hf with hf | hf
  · obtain rfl := List.eq_of_mem_replicate hf
    exact filterAt_sample nofun
  · obtain rfl := List.mem_singleton.mp hf
    exact filterAt_sample fun _ => by decide

theorem noHandler_at : (sample (fun _ => thrown) noHandler).At (sampleMem noHandler 8 [0x7f, 0])
    sampleBases 0x2000 := by
  refine sample_at (by decide) (by decide) (by decide) (by decide) ?_
  rw [noHandler, List.forall_mem_singleton]
  refine ⟨chainAt_last (n := 0x7f) (by decide) (by decide) (by decide) (by decide), ?_⟩
  rw [List.forall_mem_singleton]
  exact filterAt_sample nofun

theorem sampleMem_userSpace {sites : List CallSite} {off : ℕ} {rest : List UInt8}
    (h : 4 * sites.length + rest.length < 2 ^ 62) : (sampleMem sites off rest).UserSpace := by
  refine bytesAt_userSpace ?_
  have hsites : (sites.flatMap fun s =>
      [s.start, s.len, s.pad, s.action].map UInt8.ofNat).length = 4 * sites.length := by
    rw [List.length_flatMap]
    simp [Nat.mul_comm]
  rw [List.length_append, List.length_append, hsites]
  simp only [List.length_cons, List.length_nil]
  omega

/-- The search of the LSDA of a sample, at an address, is that of the source. -/
theorem searchAsDesigned_nextRange : (sample (fun _ => thrown) nextRange).SearchAsDesigned
    (sampleMem nextRange 12 ([1, 0] ++ toLe 4 thrown)) sampleBases 0x2000 0x1015 thrown :=
  searchAsDesigned (sampleMem_userSpace (by decide)) nextRange_at 0x1015 thrown

/-- A laid out sample on which the source does not search as the personality routine does. -/
def Misread (types : ℕ → ℕ) (sites : List CallSite) (off : ℕ) (rest : List UInt8) (pc : ℕ) : Prop :=
  (sampleMem sites off rest).UserSpace ∧
    (sample types sites).At (sampleMem sites off rest) sampleBases 0x2000 ∧
    ¬ (sample types sites).SearchRight (sampleMem sites off rest) sampleBases 0x2000 pc thrown

/-- **Where the personality routine goes elsewhere**: a filter of zero, a handler for anything
before a typed one, a range that begins behind the call, a cleanup that begins there, a chain of
more than 32 actions, and a chain without a handler. -/
theorem not_searchRight_samples :
    Misread (fun _ => thrown) zeroFilter 8 [0, 0] 0x103f ∧
    Misread catchAllTypes catchAllFirst 18 ([1, 1, 2, 0] ++ toLe 4 thrown ++ toLe 4 0) 0x1012 ∧
    Misread (fun _ => thrown) nextRange 12 ([1, 0] ++ toLe 4 thrown) 0x1015 ∧
    Misread (fun _ => thrown) nextCleanup 16 ([1, 0] ++ toLe 4 thrown) 0x1015 ∧
    Misread (fun _ => thrown) longChain 76
      ((List.replicate 32 [0x7f, 1]).flatten ++ [1, 0] ++ toLe 4 thrown) 0x1012 ∧
    Misread (fun _ => thrown) noHandler 8 [0x7f, 0] 0x1012 := by
  refine ⟨⟨?_, zeroFilter_at, fun h => absurd h.handler (by decide)⟩,
    ⟨?_, catchAllFirst_at, fun h => absurd h.handler (by decide)⟩,
    ⟨?_, nextRange_at, fun h => absurd h.handler (by decide)⟩,
    ⟨?_, nextCleanup_at, fun h => absurd h.cleanup (by decide)⟩,
    ⟨?_, longChain_at, fun h => absurd h.handler (by decide)⟩,
    ⟨?_, noHandler_at, fun h => absurd h.cleanup (by decide)⟩⟩
  all_goals exact sampleMem_userSpace (by decide)

end Lsda

end Wie
