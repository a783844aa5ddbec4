import Wie.Mem.Access

/-!
# Mapping and unmapping

What mapping a range does to the arenas. Whatever happens, including a failure half way, the arenas
that were there stay where they are with their bytes and their protection, and the new ones are
fresh, zeroed and inside the range: this is `Grown`. On success the whole range is backed. Over a
range that meets no arena, mapping makes exactly one arena or none.

## Main definitions

* `ArenaSet.Grown`, `ArenaSet.Shrunk` — the arenas after a map, and after an unmap

## Main results

* `ArenaSet.map_spec` — the effect of a map, and that success backs its range
* `ArenaSet.mapNew_spec`, `ArenaSet.map_of_vacant` — a map over a vacant range is one new arena, or
  a failure that leaves the arenas as they were
* `ArenaSet.mem_spans_unmapExact`, `ArenaSet.unmapExact_shrunk` — the effect of an unmap
-/

namespace Wie

namespace ArenaSet

variable {env : HostEnv} {s s' s'' : ArenaSet} {a b : HostSpan} {lo hi va x : ℕ}

/-- `s'` is `s` after mapping inside `[lo, hi)`, whether that succeeded or not. -/
structure Grown (env : HostEnv) (lo hi : ℕ) (s s' : ArenaSet) : Prop where
  /-- The places are well-formed. -/
  placed : Placed env s'.spans
  /-- The host pages are mapped for reading. -/
  readable : Readable env s'
  /-- No arena goes away or moves. -/
  keeps : ∀ a ∈ s.spans, a ∈ s'.spans
  /-- A new arena is inside the range, zeroed, and open. -/
  fresh : ∀ a ∈ s'.spans, a ∉ s.spans → lo ≤ a.guestBase ∧ a.guestBase + a.size ≤ hi ∧
    ∀ x, a.Owns env x → s'.host.mem x = 0 ∧ s'.host.prot (x / env.pageSize) = some .rw
  /-- The bytes and the protection of the old arenas stay. -/
  same : ∀ a ∈ s.spans, ∀ x, a.Owns env x → s'.host.mem x = s.host.mem x ∧
    s'.host.prot (x / env.pageSize) = s.host.prot (x / env.pageSize)

namespace Grown

theorem of_eq (hP : Placed env s.spans) (hR : Readable env s) (hs : s'.spans = s.spans)
    (hh : s'.host = s.host) : Grown env lo hi s s' where
  placed := by rw [hs]; exact hP
  readable := by
    unfold Readable
    rw [hs, hh]
    exact hR
  keeps a ha := by rw [hs]; exact ha
  fresh a ha hn := absurd (hs ▸ ha) hn
  same a ha x hx := by rw [hh]; exact ⟨rfl, rfl⟩

theorem trans (h : Grown env lo hi s s') (h' : Grown env lo hi s' s'') : Grown env lo hi s s'' where
  placed := h'.placed
  readable := h'.readable
  keeps a ha := h'.keeps a (h.keeps a ha)
  fresh a ha hn := by
    by_cases hs' : a ∈ s'.spans
    · obtain ⟨h1, h2, h3⟩ := h.fresh a hs' hn
      refine ⟨h1, h2, fun x hx => ?_⟩
      rw [(h'.same a hs' x hx).1, (h'.same a hs' x hx).2]
      exact h3 x hx
    · exact h'.fresh a ha hs'
  same a ha x hx := by
    have h1 := h.same a ha x hx
    have h2 := h'.same a (h.keeps a ha) x hx
    exact ⟨h2.1.trans h1.1, h2.2.trans h1.2⟩

theorem mono (h : Grown env lo hi s s') {lo' hi' : ℕ} (hlo : lo' ≤ lo) (hhi : hi ≤ hi') :
    Grown env lo' hi' s s' where
  placed := h.placed
  readable := h.readable
  keeps := h.keeps
  fresh a ha hn := by
    obtain ⟨h1, h2, h3⟩ := h.fresh a ha hn
    exact ⟨by omega, by omega, h3⟩
  same := h.same

/-- Translation of what was backed stays. -/
theorem hostAddr (h : Grown env lo hi s s') (hP : Placed env s.spans) {p : ℕ}
    (hp : s.hostAddr va = some p) : s'.hostAddr va = some p := by
  obtain ⟨a, ha, hva, rfl⟩ := hP.hostAddr_eq_some.mp hp
  exact h.placed.hostAddr_of_holds (h.keeps a ha) hva

theorem backed (h : Grown env lo hi s s') (hP : Placed env s.spans)
    (hb : (s.hostAddr va).isSome = true) : (s'.hostAddr va).isSome = true := by
  obtain ⟨p, hp⟩ := Option.isSome_iff_exists.mp hb
  rw [h.hostAddr hP hp]
  rfl

/-- Bytes of what was backed stay. -/
theorem byte (h : Grown env lo hi s s') (hP : Placed env s.spans)
    (hb : (s.hostAddr va).isSome = true) : s'.byte va = s.byte va := by
  obtain ⟨p, hp⟩ := Option.isSome_iff_exists.mp hb
  obtain ⟨a, ha, hva, rfl⟩ := hP.hostAddr_eq_some.mp hp
  rw [ArenaSet.byte, ArenaSet.byte, h.hostAddr hP hp, hp, Option.map_some, Option.map_some,
    (h.same a ha _ (hva.owns env)).1]

/-- Bytes of what was not backed are zero, if they are backed now. -/
theorem byte_of_not_backed (h : Grown env lo hi s s') (hP : Placed env s.spans)
    (hb : s.hostAddr va = none) {v : UInt8} (hv : s'.byte va = some v) : v = 0 := by
  obtain ⟨p, hp, rfl⟩ := Option.map_eq_some_iff.mp hv
  obtain ⟨a, ha, hva, rfl⟩ := h.placed.hostAddr_eq_some.mp hp
  have hn : a ∉ s.spans := fun hin => hP.hostAddr_eq_none.mp hb a hin hva
  exact ((h.fresh a ha hn).2.2 _ (hva.owns env)).1

end Grown

/-! ### Permission bits -/

@[simp] theorem spans_setPerms (i perms : ℕ) : (s.setPerms i perms).spans = s.spans := by
  unfold spans setPerms
  dsimp only
  refine List.ext_getElem? fun k => ?_
  rw [List.getElem?_map, List.getElem?_map, List.getElem?_modify]
  cases s.arenas[k]? with
  | none => rfl
  | some a => by_cases hk : i = k <;> simp [hk]

@[simp] theorem host_setPerms (i perms : ℕ) : (s.setPerms i perms).host = s.host := rfl

theorem permsPass_same (perms stop : ℕ) : ∀ (fuel pageVa : ℕ) (s : ArenaSet),
    (permsPass perms stop fuel pageVa s).spans = s.spans ∧
      (permsPass perms stop fuel pageVa s).host = s.host := by
  intro fuel
  induction fuel with
  | zero => exact fun pageVa s => ⟨rfl, rfl⟩
  | succ fuel ih =>
    intro pageVa s
    unfold permsPass
    split
    · dsimp only
      split
      · exact ih _ _
      · split
        · exact ih _ _
        · split
          · obtain ⟨h1, h2⟩ := ih (pageVa + 0x1000) (s.setPerms _ perms)
            exact ⟨h1.trans (spans_setPerms _ _), h2⟩
          · exact ih _ _
    · exact ⟨rfl, rfl⟩

/-! ### One new arena -/

section MapNew

variable {base size : ℕ}

/-- A fresh host mapping shares no page with an arena. -/
theorem not_owns_of_fresh (hR : Readable env s) {p : ℕ} {host : Host} (hm : s.host.mmap env size = (some p, host))
    (ha : a ∈ s.spans) (hx : a.Owns env x) :
    ¬ (p ≤ x ∧ x < p + Host.pageCount env size * env.pageSize) := by
  rintro ⟨h1, h2⟩
  obtain ⟨q, hq, -⟩ := hR a ha x hx
  obtain ⟨-, -, -, hin, -⟩ := Host.mmap_eq_some hm
  rw [(hin x h1 h2).1] at hq
  cases hq

variable (hP : Placed env s.spans) (hR : Readable env s)

include hP hR

/-- A new arena over a vacant range: it is there and fresh, and nothing else changed. -/
theorem grown_insert (perms : ℕ) {p : ℕ} {host : Host} (hm : s.host.mmap env size = (some p, host))
    (hbase : base % 0x1000 = 0) (hsize : size % 0x1000 = 0) (hpos : 0 < size)
    (hb : base + size < 2 ^ 64) (hv : s.anyOverlap base (base + size) = false) :
    Grown env base (base + size) s
      ⟨insertBy (fun a => a.guestBase) ⟨⟨base, size, p⟩, perms⟩ s.arenas, host⟩ ∧
    ∀ a, a ∈ (⟨insertBy (fun a => a.guestBase) ⟨⟨base, size, p⟩, perms⟩ s.arenas, host⟩ :
      ArenaSet).spans ↔ a = ⟨base, size, p⟩ ∨ a ∈ s.spans := by
  set s' : ArenaSet :=
    ⟨insertBy (fun a => a.guestBase) ⟨⟨base, size, p⟩, perms⟩ s.arenas, host⟩ with hs'
  have hmem (a : HostSpan) : a ∈ s'.spans ↔ a = ⟨base, size, p⟩ ∨ a ∈ s.spans := by
    simp only [hs', spans, List.mem_map, mem_insertBy]
    constructor
    · rintro ⟨b, rfl | hb, rfl⟩
      · exact .inl rfl
      · exact .inr ⟨b, hb, rfl⟩
    · rintro (rfl | ⟨b, hb, rfl⟩)
      · exact ⟨_, .inl rfl, rfl⟩
      · exact ⟨b, .inr hb, rfl⟩
  obtain ⟨h0, hal, htop, hin, hout⟩ := Host.mmap_eq_some hm
  have hold (a : HostSpan) (ha : a ∈ s.spans) (x : ℕ) (hx : a.Owns env x) :=
    hout x (not_owns_of_fresh hR hm ha hx)
  have hvac := hP.anyOverlap_eq_false.mp hv
  have hext : Extents (fun a : MmapArena => a.guestBase) (fun a => a.guestBase + a.size)
      s'.arenas := by
    refine hP.extents_arenas.insertBy (by dsimp only; omega) fun b hb => ?_
    have := hvac _ (List.mem_map_of_mem hb)
    dsimp only
    omega
  refine ⟨⟨⟨⟨fun a ha => ?_, ?_⟩, fun a ha => ?_, fun a ha => ?_, fun a ha => ?_, fun a ha => ?_,
    fun a ha b hb hne x hxa hxb => ?_⟩, fun a ha x hx => ?_, fun a ha => (hmem a).mpr (.inr ha),
    fun a ha hn => ?_, fun a ha x hx => ⟨(hold a ha x hx).2, (hold a ha x hx).1⟩⟩, hmem⟩
  · obtain ⟨b, hb, rfl⟩ := List.mem_map.mp ha
    exact hext.pos b hb
  · exact List.pairwise_map.mpr hext.apart
  · rcases (hmem a).mp ha with rfl | ha
    · exact ⟨hbase, hsize⟩
    · exact hP.aligned a ha
  · rcases (hmem a).mp ha with rfl | ha
    · exact hb
    · exact hP.bounded a ha
  · rcases (hmem a).mp ha with rfl | ha
    · exact ⟨h0, hal⟩
    · exact hP.based a ha
  · rcases (hmem a).mp ha with rfl | ha
    · exact htop
    · exact hP.fits a ha
  · rcases (hmem a).mp ha with rfl | ha'
    · rcases (hmem b).mp hb with rfl | hb'
      · exact hne rfl
      · exact not_owns_of_fresh hR hm hb' hxb hxa
    · rcases (hmem b).mp hb with rfl | hb'
      · exact not_owns_of_fresh hR hm ha' hxa hxb
      · exact hP.apart a ha' b hb' hne x hxa hxb
  · rcases (hmem a).mp ha with rfl | ha
    · exact ⟨.rw, (hin x hx.1 hx.2).2.1, rfl⟩
    · obtain ⟨q, hq, hqr⟩ := hR a ha x hx
      exact ⟨q, (hold a ha x hx).1.trans hq, hqr⟩
  · rcases (hmem a).mp ha with rfl | ha
    · exact ⟨le_rfl, le_rfl, fun x hx => ⟨(hin x hx.1 hx.2).2.2, (hin x hx.1 hx.2).2.1⟩⟩
    · exact absurd ha hn

/-- **Mapping one new arena.** It succeeds with exactly that arena added, or fails with the arenas
as they were. -/
theorem mapNew_spec (perms : ℕ) (hbase : base % 0x1000 = 0) (hsize : size % 0x1000 = 0) (hpos : 0 < size)
    (hb : base + size < 2 ^ 64) :
    Grown env base (base + size) s (s.mapNew env base size perms).2 ∧
      (((s.mapNew env base size perms).1 = .ok () ∧
          ∃ p, ∀ a, a ∈ (s.mapNew env base size perms).2.spans ↔
            a = ⟨base, size, p⟩ ∨ a ∈ s.spans) ∨
        ((∃ e, (s.mapNew env base size perms).1 = .error e) ∧
          (s.mapNew env base size perms).2.arenas = s.arenas)) := by
  unfold mapNew
  rw [if_neg (by omega)]
  cases hm : s.host.mmap env size with
  | mk r host =>
    cases r with
    | none =>
      obtain ⟨hmem, hprot⟩ := Host.mmap_eq_none hm
      refine ⟨⟨hP, fun a ha x hx => ?_, fun a ha => ha, fun a ha hn => absurd ha hn,
        fun a ha x hx => ?_⟩, .inr ⟨⟨_, rfl⟩, rfl⟩⟩
      · dsimp only
        rw [hprot]
        exact hR a ha x hx
      · dsimp only
        rw [hmem, hprot]
        exact ⟨rfl, rfl⟩
    | some p =>
      have hend : (⟨base, size, p⟩ : HostSpan).guestEnd = base + size := satAdd_of_lt hb
      dsimp only
      rw [hend]
      cases hv : s.anyOverlap base (base + size) with
      | false =>
        rw [if_neg Bool.false_ne_true]
        obtain ⟨hg, hmem⟩ := grown_insert hP hR perms hm hbase hsize hpos hb hv
        exact ⟨hg, .inl ⟨rfl, p, hmem⟩⟩
      | true =>
        -- the fresh mapping is dropped again; it met no page of an arena
        rw [if_pos rfl]
        obtain ⟨-, hal, -, -, hout⟩ := Host.mmap_eq_some hm
        have hold (a : HostSpan) (ha : a ∈ s.spans) (x : ℕ) (hx : a.Owns env x) :
            (host.munmap env p size).prot (x / env.pageSize) =
              s.host.prot (x / env.pageSize) ∧ host.mem x = s.host.mem x := by
          have hn := not_owns_of_fresh hR hm ha hx
          exact ⟨(Host.munmap_prot hal hn).trans (hout x hn).1, (hout x hn).2⟩
        refine ⟨⟨hP, fun a ha x hx => ?_, fun a ha => ha, fun a ha hn => absurd ha hn,
          fun a ha x hx => ⟨(hold a ha x hx).2, (hold a ha x hx).1⟩⟩, .inr ⟨⟨_, rfl⟩, rfl⟩⟩
        obtain ⟨q, hq, hqr⟩ := hR a ha x hx
        exact ⟨q, (hold a ha x hx).1.trans hq, hqr⟩

end MapNew

/-! ### Mapping a range -/

/-- Mapping a run of vacant pages: the effect, and that success backs the run. -/
theorem mapRun_spec (hP : Placed env s.spans) (hR : Readable env s) {base : ℕ} (size perms : ℕ)
    (hbase : base % 0x1000 = 0) (hsize : size % 0x1000 = 0) (hb : base + size < 2 ^ 64) :
    Grown env base (base + size) s (s.mapRun env base size perms).2 ∧
      ((s.mapRun env base size perms).1 = .ok () → ∀ x, base ≤ x → x < base + size →
        ((s.mapRun env base size perms).2.hostAddr x).isSome = true) := by
  unfold mapRun
  split
  · rename_i hpos
    obtain ⟨hg, hres⟩ := mapNew_spec hP hR perms hbase hsize hpos hb
    refine ⟨hg, fun hok x h1 h2 => ?_⟩
    rcases hres with ⟨-, p, hmem⟩ | ⟨⟨e, he⟩, -⟩
    · exact hg.placed.hostAddr_isSome.mpr ⟨_, (hmem _).mpr (.inl rfl), h1, h2⟩
    · rw [he] at hok
      cases hok
  · exact ⟨.of_eq hP hR rfl rfl, fun _ x h1 h2 => by omega⟩

/-- The second pass: its effect, and that success backs everything from the current run on. -/
theorem mapPass_spec (perms lo stop : ℕ) (hstop : stop % 0x1000 = 0) (htop : stop < 2 ^ 64) :
    ∀ (fuel pageVa : ℕ) (runStart : Option ℕ) (s : ArenaSet), Placed env s.spans → Readable env s →
    pageVa % 0x1000 = 0 → lo ≤ pageVa → pageVa ≤ stop → stop ≤ pageVa + fuel * 0x1000 →
    (∀ start, runStart = some start → lo ≤ start ∧ start ≤ pageVa ∧ start % 0x1000 = 0) →
    Grown env lo stop s (mapPass env perms stop fuel pageVa runStart s).2 ∧
      ((mapPass env perms stop fuel pageVa runStart s).1 = .ok () →
        ∀ x, runStart.getD pageVa ≤ x → x < stop →
          ((mapPass env perms stop fuel pageVa runStart s).2.hostAddr x).isSome = true) := by
  -- at the end of the range, the last run is mapped
  have hlast (s : ArenaSet) (hP : Placed env s.spans) (hR : Readable env s) (start : ℕ)
      (h1 : lo ≤ start) (h2 : start ≤ stop) (h3 : start % 0x1000 = 0) :
      Grown env lo stop s (s.mapRun env start (stop - start) perms).2 ∧
        ((s.mapRun env start (stop - start) perms).1 = .ok () → ∀ x, start ≤ x → x < stop →
          ((s.mapRun env start (stop - start) perms).2.hostAddr x).isSome = true) := by
    obtain ⟨hg, hb⟩ := mapRun_spec hP hR (stop - start) perms h3 (by omega)
      (by omega)
    exact ⟨hg.mono h1 (by omega), fun hok x hx1 hx2 => hb hok x hx1 (by omega)⟩
  intro fuel
  induction fuel with
  | zero =>
    intro pageVa runStart s hP hR hpg hlo hle hf hrun
    obtain rfl : pageVa = stop := by omega
    unfold mapPass
    cases runStart with
    | none =>
      refine ⟨.of_eq hP hR rfl rfl, fun _ x h1 h2 => ?_⟩
      simp only [Option.getD_none] at h1
      omega
    | some start =>
      obtain ⟨h1, h2, h3⟩ := hrun start rfl
      exact hlast s hP hR start h1 h2 h3
  | succ fuel ih =>
    intro pageVa runStart s hP hR hpg hlo hle hf hrun
    unfold mapPass
    by_cases hlt : pageVa < stop
    · rw [if_pos hlt]
      by_cases hmapped : (s.findVa pageVa).isSome = true
      · rw [if_pos hmapped]
        -- the page is in an arena: a run ends here, and the page is backed
        have hbacked : (s.hostAddr pageVa).isSome = true := by
          simpa [hostAddr, spanAt] using hmapped
        have hpage {s' : ArenaSet} (hg : Grown env lo stop s s') (x : ℕ) (h1 : pageVa ≤ x)
            (h2 : x < pageVa + 0x1000) : (s'.hostAddr x).isSome = true := by
          obtain ⟨p, hp⟩ := Option.isSome_iff_exists.mp hbacked
          have := hP.hostAddr_add hp (i := x - pageVa) (by omega)
          rw [show pageVa + (x - pageVa) = x by omega] at this
          exact hg.backed hP (by rw [this]; rfl)
        cases runStart with
        | none =>
          obtain ⟨hg, hb⟩ := ih (pageVa + 0x1000) none s hP hR (by omega) (by omega) (by omega)
            (by omega) (by simp)
          refine ⟨hg, fun hok x h1 h2 => ?_⟩
          simp only [Option.getD_none] at h1 hb
          by_cases hx : x < pageVa + 0x1000
          · exact hpage hg x h1 hx
          · exact hb hok x (by omega) h2
        | some start =>
          obtain ⟨hs1, hs2, hs3⟩ := hrun start rfl
          dsimp only
          obtain ⟨hg₁, hb₁⟩ := mapRun_spec hP hR (pageVa - start) perms hs3
            (by omega) (by omega)
          replace hg₁ : Grown env lo stop s _ := hg₁.mono hs1 (by omega)
          generalize s.mapRun env start (pageVa - start) perms = out at hg₁ hb₁
          obtain ⟨r, s₁⟩ := out
          cases r with
          | error e => exact ⟨hg₁, fun hok => by cases hok⟩
          | ok u =>
            obtain ⟨hg₂, hb₂⟩ := ih (pageVa + 0x1000) none s₁ hg₁.placed hg₁.readable (by omega)
              (by omega) (by omega) (by omega) (by simp)
            refine ⟨hg₁.trans hg₂, fun hok x h1 h2 => ?_⟩
            simp only [Option.getD_some, Option.getD_none] at h1 hb₂
            by_cases hx : x < pageVa
            · exact hg₂.backed hg₁.placed (hb₁ rfl x h1 (by omega))
            · by_cases hx' : x < pageVa + 0x1000
              · exact hpage (hg₁.trans hg₂) x (by omega) hx'
              · exact hb₂ hok x (by omega) h2
      · rw [if_neg hmapped]
        -- the page is in no arena: the run goes on, or starts here
        obtain ⟨hg, hb⟩ := ih (pageVa + 0x1000) (some (runStart.getD pageVa)) s hP hR (by omega)
          (by omega) (by omega) (by omega) (fun start hst => by
            cases hst
            cases runStart with
            | none => exact ⟨hlo, by simp, by simpa using hpg⟩
            | some start =>
              obtain ⟨h1, h2, h3⟩ := hrun start rfl
              exact ⟨h1, by simp; omega, by simpa using h3⟩)
        exact ⟨hg, hb⟩
    · rw [if_neg hlt]
      obtain rfl : pageVa = stop := by omega
      cases runStart with
      | none =>
        refine ⟨.of_eq hP hR rfl rfl, fun _ x h1 h2 => ?_⟩
        simp only [Option.getD_none] at h1
        omega
      | some start =>
        obtain ⟨h1, h2, h3⟩ := hrun start rfl
        exact hlast s hP hR start h1 h2 h3

theorem checkMapArgs_eq_ok {address size : ℕ} {r : ℕ × ℕ} (h : checkMapArgs address size = .ok r) :
    (size = 0 ∧ r = (address, address)) ∨
      (0 < size ∧ address % 0x1000 = 0 ∧ size % 0x1000 = 0 ∧ address + size < 2 ^ 64 ∧
        r = (address, address + size)) := by
  unfold checkMapArgs at h
  split at h
  · cases h
    exact .inl ⟨‹_›, rfl⟩
  · split at h
    · cases h
    · split at h
      · cases h
      · split at h
        · cases h
        · rename_i h0 ha hz _ stop hadd
          cases h
          obtain ⟨rfl, hlt⟩ := checkedAdd_eq_some.mp hadd
          exact .inr ⟨by omega, by omega, by omega, hlt, rfl⟩

/-- **The effect of a map**, on success and on failure. -/
theorem map_spec (hP : Placed env s.spans) (hR : Readable env s) (address size perms : ℕ) :
    Grown env address (address + size) s (s.map env address size perms).2 ∧
      ((s.map env address size perms).1 = .ok () → ∀ x, address ≤ x → x < address + size →
        ((s.map env address size perms).2.hostAddr x).isSome = true) := by
  unfold map
  cases hc : checkMapArgs address size with
  | error e => exact ⟨.of_eq hP hR rfl rfl, fun hok => by cases hok⟩
  | ok r =>
    rcases checkMapArgs_eq_ok hc with ⟨rfl, rfl⟩ | ⟨hpos, ha, hz, hb, rfl⟩
    · dsimp only
      rw [mapRange, if_pos rfl]
      exact ⟨.of_eq hP hR rfl rfl, fun _ x h1 h2 => by omega⟩
    · dsimp only
      rw [mapRange, if_neg (by omega)]
      split
      · rename_i i hi
        -- an exact rematch: the arena that is there backs the range
        refine ⟨.of_eq hP hR (spans_setPerms _ _) rfl, fun _ x h1 h2 => ?_⟩
        obtain ⟨hlt, hex, -⟩ := List.findIdx?_eq_some_iff_getElem.mp hi
        rw [HostSpan.isExactRange, decide_eq_true_eq] at hex
        have hmem : (s.arenas[i]).toHostSpan ∈ s.spans :=
          List.mem_map_of_mem (List.getElem_mem hlt)
        have hP' : Placed env (s.setPerms i perms).spans := by rwa [spans_setPerms]
        refine hP'.hostAddr_isSome.mpr ⟨_, by rw [spans_setPerms]; exact hmem, ?_⟩
        exact ⟨by omega, by omega⟩
      · obtain ⟨hsp, hh⟩ := permsPass_same perms (address + size)
          ((address + size - address) / 0x1000) address s
        set s₀ := permsPass perms (address + size) ((address + size - address) / 0x1000) address s
        have hg₀ : Grown env address (address + size) s s₀ := .of_eq hP hR hsp hh
        obtain ⟨hg, hback⟩ := mapPass_spec perms address (address + size) (by omega) hb
          ((address + size - address) / 0x1000) address none s₀ hg₀.placed hg₀.readable ha le_rfl
          (by omega) (by omega) (by simp)
        exact ⟨hg₀.trans hg, fun hok x h1 h2 => hback hok x h1 h2⟩

/-! ### Mapping a vacant range -/

section Vacant

variable (hP : Placed env s.spans) {stop : ℕ}
  (hv : ∀ a ∈ s.spans, stop ≤ a.guestBase ∨ a.guestBase + a.size ≤ lo)

include hP hv

theorem findVa_of_vacant (h1 : lo ≤ va) (h2 : va < stop) : s.findVa va = none := by
  have : s.spanAt va = none := hP.spanAt_eq_none.mpr fun a ha hh => by
    have := hv a ha
    have := hh.1
    have := hh.2
    omega
  rwa [spanAt, Option.map_eq_none_iff] at this

theorem permsPass_of_vacant (perms : ℕ) : ∀ (fuel pageVa : ℕ), lo ≤ pageVa →
    permsPass perms stop fuel pageVa s = s := by
  intro fuel
  induction fuel with
  | zero => exact fun pageVa _ => rfl
  | succ fuel ih =>
    intro pageVa hlo
    unfold permsPass
    split
    · rename_i hlt
      have hnone := findVa_of_vacant hP hv hlo hlt
      unfold findVa at hnone
      dsimp only
      split
      · exact ih _ (by omega)
      · rename_i i hi
        rw [hi] at hnone
        dsimp only at hnone
        split
        · exact ih _ (by omega)
        · rename_i a ha
          rw [ha] at hnone
          split
          · rename_i hc
            simp [hc] at hnone
          · exact ih _ (by omega)
    · rfl

theorem mapPass_of_vacant (perms start : ℕ) : ∀ (fuel pageVa : ℕ), lo ≤ pageVa →
    stop ≤ pageVa + fuel * 0x1000 →
    mapPass env perms stop fuel pageVa (some start) s =
      s.mapRun env start (stop - start) perms := by
  intro fuel
  induction fuel with
  | zero => exact fun pageVa _ _ => rfl
  | succ fuel ih =>
    intro pageVa hlo hf
    unfold mapPass
    split
    · rename_i hlt
      rw [findVa_of_vacant hP hv hlo hlt]
      simp only [Option.isSome_none, Bool.false_eq_true, if_false, Option.getD_some]
      exact ih _ (by omega) (by omega)
    · rfl

end Vacant

/-- **A map over a vacant range is one new arena.** -/
theorem map_of_vacant (hP : Placed env s.spans) {address size perms : ℕ} (hpos : 0 < size)
    (ha : address % 0x1000 = 0) (hz : size % 0x1000 = 0) (hb : address + size < 2 ^ 64)
    (hv : s.anyOverlap address (address + size) = false) :
    s.map env address size perms = s.mapNew env address size perms := by
  have hvac := hP.anyOverlap_eq_false.mp hv
  have hc : checkMapArgs address size = .ok (address, address + size) := by
    unfold checkMapArgs
    rw [if_neg (by omega), if_neg (by simpa using ha), if_neg (by simpa using hz),
      checkedAdd_eq_some.mpr ⟨rfl, hb⟩]
  unfold map
  rw [hc]
  dsimp only
  rw [mapRange, if_neg (by omega)]
  have hex : s.arenas.findIdx? (fun a => a.isExactRange address size) = none := by
    rw [List.findIdx?_eq_none_iff]
    intro b hb'
    have := hvac _ (List.mem_map_of_mem hb')
    simp only [HostSpan.isExactRange, decide_eq_false_iff_not]
    omega
  rw [hex]
  dsimp only
  rw [permsPass_of_vacant hP hvac perms _ _ le_rfl]
  obtain ⟨n, hn⟩ : ∃ n, (address + size - address) / 0x1000 = n + 1 :=
    ⟨(address + size - address) / 0x1000 - 1, by omega⟩
  rw [hn, mapPass, if_pos (by omega), findVa_of_vacant hP hvac le_rfl (by omega)]
  simp only [Option.isSome_none, Bool.false_eq_true, if_false, Option.getD_none]
  rw [mapPass_of_vacant hP hvac perms address n _ (by omega) (by omega), mapRun,
    show address + size - address = size by omega, if_pos hpos]

/-! ### Failed maps -/

theorem findVa_isSome_iff : (s.findVa va).isSome = true ↔ (s.hostAddr va).isSome = true := by
  simp [hostAddr, spanAt]

theorem mapNew_error {base size perms : ℕ} {e : CpuError}
    (h : s.mapNew env base size perms = (.error e, s')) : s'.arenas = s.arenas := by
  unfold mapNew at h
  split at h
  · cases h
    rfl
  · split at h
    · cases h
      rfl
    · dsimp only at h
      split at h
      · cases h
        rfl
      · cases h

theorem mapRun_error {base size perms : ℕ} {e : CpuError}
    (h : s.mapRun env base size perms = (.error e, s')) : s'.arenas = s.arenas := by
  unfold mapRun at h
  split at h
  · exact mapNew_error h
  · cases h

/-- A failed second pass met a page in no arena. It left the arenas as they were unless such pages
come in several runs: then a first run may have been mapped before a later one failed. -/
theorem mapPass_error (perms stop : ℕ) (htop : stop < 2 ^ 64) (e : CpuError) (s' : ArenaSet) :
    ∀ (fuel pageVa : ℕ) (runStart : Option ℕ) (s : ArenaSet), Placed env s.spans → Readable env s →
    pageVa % 0x1000 = 0 → (∀ start, runStart = some start → start ≤ pageVa ∧ start % 0x1000 = 0) →
    mapPass env perms stop fuel pageVa runStart s = (.error e, s') →
    (runStart ≠ none ∨ ∃ z, pageVa ≤ z ∧ z < stop ∧ s.hostAddr z = none) ∧
      (s'.arenas = s.arenas ∨ ∃ y z, pageVa ≤ y ∧ y < z ∧ z < stop ∧
        (s.hostAddr y).isSome = true ∧ s.hostAddr z = none ∧
        (runStart ≠ none ∨ ∃ x, pageVa ≤ x ∧ x < y ∧ s.hostAddr x = none)) := by
  intro fuel
  induction fuel with
  | zero =>
    intro pageVa runStart s _ _ _ _ h
    unfold mapPass at h
    cases runStart with
    | none => cases h
    | some start => exact ⟨.inl (by simp), .inl (mapRun_error h)⟩
  | succ fuel ih =>
    intro pageVa runStart s hP hR hpg hrun h
    unfold mapPass at h
    split at h
    · rename_i hlt
      split at h
      · rename_i hmapped
        rw [findVa_isSome_iff] at hmapped
        cases runStart with
        | none =>
          obtain ⟨h1, h2⟩ := ih _ none s hP hR (by omega) (by simp) h
          refine ⟨.inr ?_, h2.imp id ?_⟩
          · obtain ⟨z, hz⟩ := h1.resolve_left (by simp)
            exact ⟨z, by omega, hz.2⟩
          · rintro ⟨y, z, hy, hyz, hz, hby, hbz, hx⟩
            obtain ⟨x, hx1, hx2, hx3⟩ := hx.resolve_left (by simp)
            exact ⟨y, z, by omega, hyz, hz, hby, hbz, .inr ⟨x, by omega, hx2, hx3⟩⟩
        | some start =>
          dsimp only at h
          cases hm : s.mapRun env start (pageVa - start) perms with
          | mk r s₁ =>
            rw [hm] at h
            cases r with
            | error e' =>
              cases h
              exact ⟨.inl (by simp), .inl (mapRun_error hm)⟩
            | ok u =>
              -- the run was mapped, and a later page in no arena was found
              obtain ⟨hs1, hs2⟩ := hrun start rfl
              have hg := (mapRun_spec hP hR (pageVa - start) perms hs2 (by omega)
                (by omega)).1
              rw [hm] at hg
              obtain ⟨h1, -⟩ := ih _ none s₁ hg.placed hg.readable (by omega) (by simp) h
              obtain ⟨z, hz1, hz2, hz3⟩ := h1.resolve_left (by simp)
              refine ⟨.inl (by simp), .inr ⟨pageVa, z, le_rfl, by omega, hz2, hmapped, ?_,
                .inl (by simp)⟩⟩
              cases hb : s.hostAddr z with
              | none => rfl
              | some p =>
                rw [hg.hostAddr hP hb] at hz3
                cases hz3
      · rename_i hmapped
        have hno : s.hostAddr pageVa = none := by
          rw [findVa_isSome_iff] at hmapped
          simpa using hmapped
        have hrun' (start : ℕ) (hs : some (runStart.getD pageVa) = some start) :
            start ≤ pageVa + 0x1000 ∧ start % 0x1000 = 0 := by
          cases runStart with
          | none =>
            cases hs
            exact ⟨by simp, hpg⟩
          | some s₀ =>
            cases hs
            have := hrun s₀ rfl
            exact ⟨by simp; omega, this.2⟩
        obtain ⟨-, h2⟩ := ih _ _ s hP hR (by omega) hrun' h
        refine ⟨.inr ⟨pageVa, le_rfl, hlt, hno⟩, h2.imp id ?_⟩
        rintro ⟨y, z, hy, hyz, hz, hby, hbz, -⟩
        exact ⟨y, z, by omega, hyz, hz, hby, hbz, .inr ⟨pageVa, le_rfl, by omega, hno⟩⟩
    · cases runStart with
      | none => cases h
      | some start => exact ⟨.inl (by simp), .inl (mapRun_error h)⟩

/-- The arenas that meet `[lo, hi)` have the permission bits `perms`, and the rest of the range is
one gap. -/
def OneGap (s : ArenaSet) (lo hi perms : ℕ) : Prop :=
  (∀ a ∈ s.arenas, a.guestBase < hi → lo < a.guestBase + a.size → a.perms = perms) ∧
  ∀ x y z, lo ≤ x → x < y → y < z → z < hi → s.hostAddr x = none →
    (s.hostAddr y).isSome = true → (s.hostAddr z).isSome = true

theorem setPerms_of_eq {i perms : ℕ} {a : MmapArena} (ha : s.arenas[i]? = some a)
    (hp : a.perms = perms) : s.setPerms i perms = s := by
  have : s.arenas.modify i (fun a => { a with perms := perms }) = s.arenas := by
    refine List.ext_getElem? fun k => ?_
    rw [List.getElem?_modify]
    by_cases hk : i = k
    · subst hk
      rw [ha]
      simp [← hp]
    · simp [hk]
  unfold setPerms
  rw [this]

/-- Recording the bits that are there changes nothing. -/
theorem permsPass_of_agree (hP : Placed env s.spans) {perms stop : ℕ}
    (hag : ∀ a ∈ s.arenas, a.guestBase < stop → lo < a.guestBase + a.size → a.perms = perms) :
    ∀ (fuel pageVa : ℕ), lo ≤ pageVa → permsPass perms stop fuel pageVa s = s := by
  intro fuel
  induction fuel with
  | zero => exact fun pageVa _ => rfl
  | succ fuel ih =>
    intro pageVa hlo
    unfold permsPass
    split
    · rename_i hlt
      dsimp only
      split
      · exact ih _ (by omega)
      · rename_i i hi
        split
        · exact ih _ (by omega)
        · rename_i a ha
          split
          · rename_i hc
            have hmem := List.mem_of_getElem? ha
            have hh := (hP.containsVa_iff (List.mem_map_of_mem hmem)).mp hc
            rw [setPerms_of_eq ha (hag a hmem (lt_of_le_of_lt hh.1 hlt)
              (lt_of_le_of_lt hlo hh.2))]
            exact ih _ (by omega)
          · exact ih _ (by omega)
    · rfl

/-- **A failed map** of a page range met a page in no arena, and left the arenas as they were if
there was one gap to fill. -/
theorem map_error (hP : Placed env s.spans) (hR : Readable env s) {address size perms : ℕ}
    (hpos : 0 < size) (ha : address % 0x1000 = 0) (hz : size % 0x1000 = 0)
    (hb : address + size < 2 ^ 64) {e : CpuError}
    (hm : s.map env address size perms = (.error e, s')) :
    (∃ x, address ≤ x ∧ x < address + size ∧ s.hostAddr x = none) ∧
      (OneGap s address (address + size) perms → s'.arenas = s.arenas) := by
  have hc : checkMapArgs address size = .ok (address, address + size) := by
    unfold checkMapArgs
    rw [if_neg (by omega), if_neg (by simpa using ha), if_neg (by simpa using hz),
      checkedAdd_eq_some.mpr ⟨rfl, hb⟩]
  unfold map at hm
  rw [hc] at hm
  dsimp only at hm
  rw [mapRange, if_neg (by omega)] at hm
  split at hm
  · cases hm
  · obtain ⟨hsp, hh⟩ := permsPass_same perms (address + size)
      ((address + size - address) / 0x1000) address s
    set s₀ := permsPass perms (address + size) ((address + size - address) / 0x1000) address s
      with hs₀
    have hg₀ : Grown env address (address + size) s s₀ := .of_eq hP hR hsp hh
    have hback (x : ℕ) : s₀.hostAddr x = none ↔ s.hostAddr x = none := by
      rw [hg₀.placed.hostAddr_eq_none, hP.hostAddr_eq_none, hsp]
    obtain ⟨h1, h2⟩ := mapPass_error perms (address + size) hb e s' _ address none s₀
      hg₀.placed hg₀.readable ha (by simp) hm
    obtain ⟨z, hz1, hz2, hz3⟩ := h1.resolve_left (by simp)
    refine ⟨⟨z, hz1, hz2, (hback z).mp hz3⟩, fun hgap => ?_⟩
    have hsame : s₀ = s := permsPass_of_agree hP hgap.1 _ _ le_rfl
    rw [hsame] at h2
    rcases h2 with heq | ⟨y, w, hy, hyw, hw, hby, hbw, hx⟩
    · exact heq
    · obtain ⟨x, hx1, hx2, hx3⟩ := hx.resolve_left (by simp)
      have := hgap.2 x y w hx1 hx2 hyw hw hx3 hby
      rw [hbw] at this
      cases this

/-! ### Unmapping -/

theorem isExactRange_iff {b : MmapArena} {address size : ℕ} :
    b.isExactRange address size = true ↔ b.guestBase = address ∧ b.size = size := by
  rw [HostSpan.isExactRange, decide_eq_true_eq]

/-- An unmap removes the arena that is exactly the range, if there is one. -/
theorem mem_spans_unmapExact (hP : Placed env s.spans) {address size : ℕ} :
    a ∈ (s.unmapExact env address size).spans ↔
      a ∈ s.spans ∧ ¬ (a.guestBase = address ∧ a.size = size) := by
  unfold unmapExact
  split
  · rename_i hn
    rw [List.find?_eq_none] at hn
    refine ⟨fun ha => ⟨ha, fun he => ?_⟩, fun ha => ha.1⟩
    obtain ⟨b, hb, rfl⟩ := List.mem_map.mp ha
    exact hn b hb (isExactRange_iff.mpr he)
  · rename_i c hc
    have hcm := List.mem_of_find?_eq_some hc
    have hcx := isExactRange_iff.mp (by simpa using List.find?_some hc)
    simp only [spans, List.mem_map]
    constructor
    · rintro ⟨b, hb, rfl⟩
      have hbm : b ∈ s.arenas := List.mem_of_mem_eraseP hb
      refine ⟨⟨b, hbm, rfl⟩, fun he => ?_⟩
      -- a second arena of that range cannot remain
      obtain ⟨b', l₁, l₂, -, hbx, hl, her⟩ :=
        List.exists_of_eraseP (p := fun a : MmapArena => a.isExactRange address size) hcm
          (isExactRange_iff.mpr hcx)
      have hpos := hP.extents_arenas.pos b hbm
      have hbx' := isExactRange_iff.mp hbx
      rw [her] at hb
      have hall := hP.extents_arenas.apart
      rw [hl] at hall
      rcases List.mem_append.mp hb with h | h
      · have := (List.pairwise_append.mp hall).2.2 b h b' (by simp)
        omega
      · have := (List.pairwise_cons.mp (List.pairwise_append.mp hall).2.1).1 b h
        omega
    · rintro ⟨⟨b, hb, rfl⟩, hne⟩
      refine ⟨b, ?_, rfl⟩
      exact (List.mem_eraseP_of_neg (by rw [isExactRange_iff]; exact hne)).mpr hb

/-- `s'` is `s` with some arenas gone; those that remain kept their bytes and protection. -/
structure Shrunk (env : HostEnv) (s s' : ArenaSet) : Prop where
  /-- The places are well-formed. -/
  placed : Placed env s'.spans
  /-- The host pages are mapped for reading. -/
  readable : Readable env s'
  /-- No arena appears. -/
  subset : ∀ a ∈ s'.spans, a ∈ s.spans
  /-- The bytes and the protection of the arenas that remain stay. -/
  same : ∀ a ∈ s'.spans, ∀ x, a.Owns env x → s'.host.mem x = s.host.mem x ∧
    s'.host.prot (x / env.pageSize) = s.host.prot (x / env.pageSize)

theorem Shrunk.hostAddr (h : Shrunk env s s') (hP : Placed env s.spans) {p : ℕ}
    (hp : s'.hostAddr va = some p) : s.hostAddr va = some p := by
  obtain ⟨a, ha, hva, rfl⟩ := h.placed.hostAddr_eq_some.mp hp
  exact hP.hostAddr_of_holds (h.subset a ha) hva

theorem Shrunk.byte (h : Shrunk env s s') (hP : Placed env s.spans)
    (hb : (s'.hostAddr va).isSome = true) : s'.byte va = s.byte va := by
  obtain ⟨p, hp⟩ := Option.isSome_iff_exists.mp hb
  obtain ⟨a, ha, hva, rfl⟩ := h.placed.hostAddr_eq_some.mp hp
  rw [ArenaSet.byte, ArenaSet.byte, h.hostAddr hP hp, hp, Option.map_some, Option.map_some,
    (h.same a ha _ (hva.owns env)).1]

/-- **The effect of an unmap.** -/
theorem unmapExact_shrunk (hP : Placed env s.spans) (hR : Readable env s) (address size : ℕ) :
    Shrunk env s (s.unmapExact env address size) := by
  have hsub (a : HostSpan) (ha : a ∈ (s.unmapExact env address size).spans) : a ∈ s.spans :=
    ((mem_spans_unmapExact hP).mp ha).1
  have hlist : (s.unmapExact env address size).spans.Sublist s.spans := by
    unfold unmapExact
    split
    · exact List.Sublist.refl _
    · exact List.eraseP_sublist.map _
  have hsame (a : HostSpan) (ha : a ∈ (s.unmapExact env address size).spans) (x : ℕ)
      (hx : a.Owns env x) : (s.unmapExact env address size).host.mem x = s.host.mem x ∧
        (s.unmapExact env address size).host.prot (x / env.pageSize) =
          s.host.prot (x / env.pageSize) := by
    obtain ⟨hmem, hne⟩ := (mem_spans_unmapExact hP).mp ha
    unfold unmapExact
    split
    · exact ⟨rfl, rfl⟩
    · rename_i c hc
      have hcm : c.toHostSpan ∈ s.spans := List.mem_map_of_mem (List.mem_of_find?_eq_some hc)
      have hcx := isExactRange_iff.mp (by simpa using List.find?_some hc)
      refine ⟨rfl, Host.munmap_prot (hP.based _ hcm).2 fun hcon => hne ?_⟩
      rw [hP.eq_of_owns hmem hcm hx hcon]
      exact hcx
  refine ⟨⟨hP.extents.sublist hlist, fun a ha => hP.aligned a (hsub a ha),
    fun a ha => hP.bounded a (hsub a ha), fun a ha => hP.based a (hsub a ha),
    fun a ha => hP.fits a (hsub a ha), fun a ha b hb => hP.apart a (hsub a ha) b (hsub b hb)⟩,
    fun a ha x hx => ?_, hsub, hsame⟩
  obtain ⟨q, hq, hqr⟩ := hR a (hsub a ha) x hx
  exact ⟨q, (hsame a ha x hx).2.trans hq, hqr⟩

end ArenaSet

end Wie
