import Wie.Jit.CodeIndex
import Wie.Mem.FlatStore
import Wie.Lib.Reach

/-!
# Runs of the code cache

The engines take their actions one at a time, in any order. What is collected at a write is dropped
in the same action, so that between actions nothing is waiting.

## Main definitions

* `CodeCache.Looked` — what a look at an address does to the cache and to the chain table
* `JitSys.Runs` — the states of all runs under a guard
* `JitSys.Tidy` — what holds in all of them

## Main results

* `JitSys.index_counts_blocks` — the index has the number of blocks on each page
* `JitSys.host_write_drops` — a write drops the blocks on its pages and no others, or all
-/

namespace Wie

open GuestMemory CodeCache

variable {cfg : JitConfig} {decode : Decoder} {env : HostEnv} {m : GuestMemory}

/-! ### What the front end can give -/

/-- Every instruction of a flow takes at most fifteen bytes, and the flow has no more than asked
for. -/
theorem flowLen_le {read : ℕ → ℕ → Option (List UInt8)} (hd : decode.Sound)
    (hread : ∀ a n b, read a n = some b → b.length = n) : ∀ n a,
    flowLen (blockFlow decode read n a) ≤ FETCH_WINDOW * n := by
  intro n
  induction n with
  | zero => exact fun a => le_rfl
  | succ n ih =>
    intro a
    rw [blockFlow]
    cases hb : read a FETCH_WINDOW with
    | none => exact Nat.zero_le _
    | some buf =>
      rw [Option.bind_some]
      cases hdec : decode buf a with
      | none => exact Nat.zero_le _
      | some i =>
        have hlen := (hd.len hdec).2
        rw [hread _ _ _ hb] at hlen
        have hone : flowLen [(a, i)] ≤ FETCH_WINDOW * (n + 1) := by
          rw [flowLen_cons, Nat.mul_succ]
          show i.len + 0 ≤ _
          omega
        have hmore : flowLen ((a, i) :: blockFlow decode read n i.nextIp) ≤
            FETCH_WINDOW * (n + 1) := by
          have := ih i.nextIp
          rw [flowLen_cons, Nat.mul_succ]
          omega
        simp only
        split_ifs
        · exact hmore
        · exact hone
        · exact Nat.zero_le _
        · exact hone
        · exact hmore

/-- The hook is asked at the start only. -/
theorem decode_without_hooks {read : ℕ → ℕ → Option (List UInt8)} {hooks : Option HookWindow}
    {start endRip bytesLen : ℕ} {insns : List Instruction} {term : Option BlockTerm}
    (h : decodePureGprBlock decode read hooks start = .pure insns endRip bytesLen term) :
    decodePureGprBlock decode read none start = .pure insns endRip bytesLen term := by
  rw [decodePureGprBlock] at h ⊢
  cases hs : hooks.any (·.shouldHostStop start) with
  | true => rw [hs, if_pos rfl] at h; cases h
  | false =>
    rw [hs] at h
    exact h

theorem insns_ne_nil {read : ℕ → ℕ → Option (List UInt8)} {start endRip bytesLen : ℕ}
    {insns : List Instruction} {term : Option BlockTerm}
    (h : decodePureGprBlock decode read none start = .pure insns endRip bytesLen term) :
    insns ≠ [] := by
  have hpure := (pure_of_decode h).1
  rintro rfl
  rw [decodePureGprBlock] at h
  simp only [hpure, Option.any_none, Bool.false_eq_true, if_false, List.length_nil] at h
  split_ifs at h with h1 h2
  all_goals exact absurd (Nat.succ_pos _) ‹¬_›

/-- **A block is not empty, is short, ends below the top, and can be read.** -/
theorem pure_bounds (hd : decode.Sound) (h : Inv env m) {start endRip bytesLen : ℕ}
    {insns : List Instruction} {term : Option BlockTerm}
    (hb : decodePureGprBlock decode (m.jitRead env) none start = .pure insns endRip bytesLen term) :
    0 < bytesLen ∧ bytesLen ≤ MAX_BLOCK_BYTES ∧ start + bytesLen < 2 ^ 64 := by
  have hbound : ∀ a b, m.jitRead env a FETCH_WINDOW = some b → a + FETCH_WINDOW < 2 ^ 64 :=
    fun a b hb => jitRead_lt_top h hb
  have hread : ∀ a n b, m.jitRead env a n = some b → b.length = n :=
    fun a n b hb => length_jitRead h hb
  have hlin := @blockFlow_linear decode (m.jitRead env) MAX_BLOCK_INSNS start
  have hscan := scanBlock_flow hd hread MAX_BLOCK_INSNS ⟨[], start, 0, none⟩
    (show 0 + 15 * 96 < 2 ^ 32 by decide)
  obtain ⟨rfl, rfl⟩ : insns = keptOf (blockFlow decode (m.jitRead env) MAX_BLOCK_INSNS start) ∧
      bytesLen = flowLen (blockFlow decode (m.jitRead env) MAX_BLOCK_INSNS start) := by
    obtain ⟨h1, h2⟩ := pure_of_decode hb
    rw [← h1, ← h2, hscan.1, hscan.2]
    exact ⟨List.nil_append _, Nat.zero_add _⟩
  have hle := flowLen_le hd hread MAX_BLOCK_INSNS start
  have hpos : 0 < flowLen (blockFlow decode (m.jitRead env) MAX_BLOCK_INSNS start) := by
    have hne := insns_ne_nil hb
    generalize blockFlow decode (m.jitRead env) MAX_BLOCK_INSNS start = flow at hne hlin
    cases hlin with
    | nil => exact absurd rfl hne
    | cons hbuf hdec _ =>
      rw [flowLen_cons]
      exact Nat.add_pos_left (hd.len hdec).1 _
  have hgrant : m.Granted .read start
      (flowLen (blockFlow decode (m.jitRead env) MAX_BLOCK_INSNS start)) := by
    refine (granted_flow hd hbound hread hlin).mpr fun p hp => ?_
    obtain ⟨buf, hbuf, hdec⟩ := hlin.decoded hp
    have hlen := (hd.len hdec).2
    rw [hread _ _ _ hbuf] at hlen
    exact (jitRead_eq h hbuf).2.mono hlen
  have htop := h.lt_top (hgrant (start + flowLen (blockFlow decode (m.jitRead env) MAX_BLOCK_INSNS
    start) - 1) (by omega) (by omega))
  refine ⟨hpos, hle.trans_eq (Nat.mul_comm _ _), ?_⟩
  omega

/-- What is compiled: the block that the front end forms. -/
theorem tryCompile_eq_some (hd : decode.Sound) (h : Inv env m) {e : CodeEngine} {rip : ℕ}
    {emitted : Option CompileOutput} {c : CompiledBlock} {t : ChainTables}
    (hc : e.tryCompile cfg decode (m.jitRead env) rip emitted = (some c, t)) :
    c.Shaped rip ∧
    (∃ endRip bytesLen term, decodePureGprBlock decode (m.jitRead env) none rip =
      .pure c.insns endRip bytesLen term ∧ c.guestEnd = rip + bytesLen) ∧
    t = if cfg.chainEnabled then e.tables.chainTableInsert (BitVec.ofNat 64 rip) c.func
      else e.tables := by
  rw [CodeEngine.tryCompile] at hc
  cases hb : decodePureGprBlock decode (m.jitRead env) e.hooks rip with
  | notPure => rw [hb] at hc; cases hc
  | pure insns endRip bytesLen term =>
    cases emitted with
    | none => rw [hb] at hc; cases hc
    | some o =>
      obtain ⟨func, funcId⟩ := o
      rw [hb] at hc
      obtain ⟨h1, h2⟩ := Prod.mk.inj hc
      obtain rfl := Option.some.inj h1
      obtain ⟨hpos, hshort, htop⟩ := pure_bounds hd h (decode_without_hooks hb)
      have hend : satAdd rip bytesLen = rip + bytesLen := satAdd_of_lt htop
      refine ⟨⟨rfl, ?_, ?_, ?_⟩, ⟨endRip, bytesLen, term, decode_without_hooks hb, hend⟩, h2.symm⟩
      · show rip < satAdd rip bytesLen
        omega
      · show satAdd rip bytesLen ≤ rip + MAX_BLOCK_BYTES
        omega
      · show satAdd rip bytesLen < 2 ^ 64
        omega

/-! ### Looks at an address -/

namespace CodeCache

/-- What a look at an address does to the cache and the chain table, when compiling has the result
`out`. -/
inductive Looked (cfg : JitConfig) (s : CodeCache) (t : ChainTables) (rip : ℕ)
    (out : Option CompiledBlock × ChainTables) : CodeCache × ChainTables → Prop
  /-- Nothing. -/
  | same : Looked cfg s t rip out (s, t)
  /-- An address without a block is counted or given up. -/
  | other (e : CacheEntry) (hr : s.ready? rip = none) (he : e.block? = none) :
    Looked cfg s t rip out ({ s with cache := s.cache.insert rip e }, t)
  /-- It is compiled. -/
  | compiled (c : CompiledBlock) (t' : ChainTables) (hc : out = (some c, t')) :
    Looked cfg s t rip out (s.insertReady cfg rip c, t')

variable {s : CodeCache} {e : CodeEngine} {read : ℕ → ℕ → Option (List UInt8)} {rip : ℕ}
  {emitted : Option CompileOutput}

/-- When compiling gives nothing, the chain table stays. -/
theorem tryCompile_none {t : ChainTables}
    (h : e.tryCompile cfg decode read rip emitted = (none, t)) : t = e.tables := by
  rw [CodeEngine.tryCompile] at h
  split at h
  · split at h
    · cases h
    · exact (Prod.mk.inj h).2.symm
  · exact (Prod.mk.inj h).2.symm

/-- What a look of the dispatcher has to do: nothing where there is a block, and what is run is in
the cache. -/
structure LooksAt (cfg : JitConfig) (s : CodeCache) (t : ChainTables) (rip : ℕ)
    (out : Option CompiledBlock × ChainTables)
    (v : Option CompiledBlock × CodeCache × ChainTables) : Prop where
  /-- Where there is a block nothing changes. -/
  same : (s.ready? rip).isSome = true → v.2 = (s, t)
  /-- What changes elsewhere. -/
  looked : Looked cfg s t rip out v.2
  /-- The block that is run is in the cache. -/
  ready : ∀ c, v.1 = some c → v.2.1.ready? rip = some c

theorem looksAt_compileAt (hr : s.ready? rip = none) :
    LooksAt cfg s e.tables rip (e.tryCompile cfg decode read rip emitted)
      (e.compileAt cfg decode read s rip emitted) := by
  have hno : ¬ (s.ready? rip).isSome = true := by
    rw [hr]
    exact Bool.false_ne_true
  rw [CodeEngine.compileAt]
  cases hc : e.tryCompile cfg decode read rip emitted with
  | mk o t =>
    cases o with
    | some c =>
      refine ⟨fun h => absurd h hno, .compiled c t rfl, fun c' hc' => ?_⟩
      obtain rfl := Option.some.inj hc'
      show (s.insertReady cfg rip c).ready? rip = some c
      rw [ready?_insertReady, if_pos rfl]
    | none =>
      rw [tryCompile_none hc]
      exact ⟨fun h => absurd h hno, .other .never hr rfl, fun c hc' => by cases hc'⟩

theorem looksAt_other {out : Option CompiledBlock × ChainTables} {t : ChainTables} {e' : CacheEntry}
    (hr : s.ready? rip = none) (he : e'.block? = none) :
    LooksAt cfg s t rip out (none, { s with cache := s.cache.insert rip e' }, t) := by
  refine ⟨fun h => ?_, .other e' hr he, fun c hc => by cases hc⟩
  rw [hr] at h
  cases h

/-- **A look of the dispatcher.** -/
theorem looksAt_dispatch :
    LooksAt cfg s e.tables rip (e.tryCompile cfg decode read rip emitted)
      (e.dispatch cfg decode read s rip emitted) := by
  have hready : s.ready? rip = (s.cache.get? rip).bind (·.block?) := rfl
  rw [CodeEngine.dispatch]
  by_cases h0 : e.hooks.any (·.shouldHostStop rip) ∨ cfg.engineReady = false
  · rw [if_pos h0]
    exact ⟨fun _ => rfl, .same, fun c hc => by cases hc⟩
  rw [if_neg h0]
  cases hg : s.cache.get? rip with
  | none =>
    rw [hg] at hready
    simp only
    split_ifs
    all_goals first | exact looksAt_compileAt hready | exact looksAt_other hready rfl
  | some entry =>
    rw [hg] at hready
    cases entry with
    | ready c =>
      refine ⟨fun _ => rfl, .same, fun c' hc => ?_⟩
      obtain rfl := Option.some.inj hc
      exact hready
    | hot visits thr =>
      simp only
      split_ifs
      · exact looksAt_other hready rfl
      · exact looksAt_compileAt hready
    | never => exact ⟨fun _ => rfl, .same, fun c hc => by cases hc⟩

/-- A look ahead of time. -/
theorem precompileAt_looked :
    Looked cfg s e.tables rip (e.tryCompile cfg decode read rip emitted)
      (e.precompileAt cfg decode read s rip emitted) := by
  rw [CodeEngine.precompileAt]
  split_ifs
  · exact .same
  · cases hc : e.tryCompile cfg decode read rip emitted with
    | mk o t =>
      cases o with
      | some c => exact .compiled c t rfl
      | none =>
        rw [tryCompile_none hc]
        cases hg : s.cache.get? rip with
        | some entry => exact .same
        | none => exact .other .never (by rw [CodeCache.ready?, hg]; rfl) rfl

end CodeCache

/-! ### Runs -/

namespace JitSys

variable {ι : Type} [DecidableEq ι] {s s' : JitSys ι} {guard : JitSys ι → CodeAction ι → Prop}
  {ord : HashOrder} {i : ι}

/-- The states of all runs whose actions meet a guard, from an empty memory and new engines on. The
hash map may be gone through in another order each time. -/
def Runs (cfg : JitConfig) (decode : Decoder) (env : HostEnv)
    (guard : JitSys ι → CodeAction ι → Prop) (s : JitSys ι) : Prop :=
  GuardedReach (fun s => (∃ host, s.mem = GuestMemory.new host) ∧ s.code = .new ∧
      ∀ i, s.engines i = .new) guard
    (fun s a s' => ∃ ord, s.next cfg decode env ord a = some s') s

/-- What holds throughout. -/
structure Tidy (cfg : JitConfig) (env : HostEnv) (s : JitSys ι) : Prop where
  /-- Guest memory is reached by its calls. -/
  mem : Reachable env AnyCall s.mem
  /-- The index is right. -/
  indexed : s.code.Indexed cfg
  /-- Nothing is waiting to be dropped. -/
  pending : s.code.pendingCodeWrites = [] ∧ s.code.pendingCodeOverflow = false

omit [DecidableEq ι] in
/-- **A call on guest memory** succeeds and is followed up, or is refused. -/
theorem afterCall_eq_some {op : Op} {f : JitSys ι → JitSys ι}
    (hn : s.afterCall env op f = some s') : ∃ m', Step env s.mem op m' ∧
      ((isOk (op.run env s.mem).1 = true ∧ s' = f { s with mem := m' }) ∨
        (isOk (op.run env s.mem).1 = false ∧ s' = { s with mem := m' })) := by
  rw [afterCall] at hn
  refine ⟨(op.run env s.mem).2, ?_⟩
  cases hr : op.run env s.mem with
  | mk r m' =>
    rw [hr] at hn
    have hstep (hc : r ≠ .crash) : Step env s.mem op m' := ⟨by rw [hr]; exact hc, by rw [hr]⟩
    cases r with
    | ok v =>
      obtain rfl := Option.some.inj hn
      exact ⟨hstep nofun, .inl ⟨rfl, rfl⟩⟩
    | error e =>
      obtain rfl := Option.some.inj hn
      exact ⟨hstep nofun, .inr ⟨rfl, rfl⟩⟩
    | crash => cases hn

/-- A look keeps the index right. -/
theorem Tidy.looked (hd : decode.Sound) (h : Tidy cfg env s) {rip : ℕ}
    {emitted : Option CompileOutput} {r : CodeCache × ChainTables}
    (hl : Looked cfg s.code (s.engines i).tables rip
      ((s.engines i).tryCompile cfg decode (s.mem.jitRead env) rip emitted) r) :
    Tidy cfg env (s.put i r) := by
  cases hl with
  | same => exact ⟨h.mem, h.indexed, h.pending⟩
  | other e hr he => exact ⟨h.mem, h.indexed.insertOther hr he, h.pending⟩
  | compiled c t hc =>
    refine ⟨h.mem, h.indexed.insertReady (tryCompile_eq_some hd h.mem.inv hc).1, ?_⟩
    obtain ⟨h1, h2⟩ := removeReady_pending s.code rip
    exact ⟨h1.trans h.pending.1, h2.trans h.pending.2⟩

theorem Tidy.put (h : Tidy cfg env s) (gone : ℕ → Bool) {r : CodeCache × ChainTables}
    (hr : Dropped cfg s.code gone r.1) : Tidy cfg env (s.put i r) :=
  ⟨h.mem, hr.indexed, hr.pending.1.trans h.pending.1, hr.pending.2.trans h.pending.2⟩

/-- Nothing is dropped for an empty range. -/
theorem Tidy.invalidate (h : Tidy cfg env s) (i : ι) (addr len : ℕ) :
    Tidy cfg env (s.invalidate cfg ord i addr len) := by
  rcases Nat.eq_zero_or_pos len with rfl | hlen
  · rw [JitSys.invalidate, invalidateCodeRange_zero]
    exact ⟨h.mem, h.indexed, h.pending⟩
  · exact h.put _ (h.indexed.invalidate hlen ord _ addr)

omit [DecidableEq ι] in
/-- The pages that a write leaves to the safe point, and what is dropped there. -/
theorem Tidy.dropped_write (h : Tidy cfg env s) {address len : ℕ} (hlen : 0 < len)
    (htop : address + len < 2 ^ 64) (t : ChainTables) :
    Dropped cfg s.code (fun va =>
        decide (PENDING_WRITE_PAGE_CAP < (codePageSpan address (address + len)).length) ||
          s.code.onPages (codePageSpan address (address + len)) va)
      ((s.code.noteCodeWrite address len).drainPendingCodeWrites cfg ord t).1 := by
  have hsame : ({ s.code with pendingCodeWrites := [], pendingCodeOverflow := false } : CodeCache) =
      s.code := by
    rw [← h.pending.1, ← h.pending.2]
  have hpages : ∀ p ∈ codePageSpan address (address + len), p < 2 ^ 52 := fun p hp => by
    obtain ⟨x, -, h2, rfl⟩ := mem_codePageSpan.mp hp
    omega
  rw [noteCodeWrite_eq h.pending.1 h.pending.2 hlen htop]
  by_cases hle : (codePageSpan address (address + len)).length ≤ PENDING_WRITE_PAGE_CAP
  · rw [if_pos hle]
    have hidx : Indexed cfg { s.code with
        pendingCodeWrites := codePageSpan address (address + len) } := h.indexed.congr rfl rfl rfl
    have hdrain := hidx.drain hpages ord t
    rw [decide_eq_false (not_lt.mpr hle)]
    simp only [h.pending.2, Bool.false_or] at hdrain ⊢
    rw [← hsame]
    exact hdrain
  · rw [if_neg hle]
    have hidx : Indexed cfg { s.code with pendingCodeOverflow := true, pendingCodeWrites := [] } :=
      h.indexed.congr rfl rfl rfl
    have hdrain := hidx.drain (fun p hp => absurd hp List.not_mem_nil) ord t
    rw [decide_eq_true (not_le.mp hle)]
    simp only [Bool.true_or] at hdrain ⊢
    rw [← hsame]
    exact hdrain

omit [DecidableEq ι] in
/-- What a write of the host drops. -/
theorem Tidy.memWrite (h : Tidy cfg env s) {address : ℕ} {bytes : List UInt8}
    (hok : isOk (Op.run env s.mem (.write address bytes)).1 = true) (t : ChainTables) :
    Dropped cfg s.code (fun va =>
        decide (PENDING_WRITE_PAGE_CAP < (codePageSpan address (address + bytes.length)).length) ||
          s.code.onPages (codePageSpan address (address + bytes.length)) va)
      ((s.code.noteCodeWrite address bytes.length).drainPendingCodeWrites cfg ord t).1 := by
  rcases Nat.eq_zero_or_pos bytes.length with hlen | hlen
  · have hspan : codePageSpan address (address + 0) = [] := if_pos le_rfl
    have hkept : ((s.code.noteCodeWrite address 0).drainPendingCodeWrites cfg ord t).1 =
        s.code := by
      rw [noteCodeWrite, if_pos (.inl rfl), drainPendingCodeWrites]
      simp only [h.pending.1, h.pending.2, Bool.false_eq_true, if_false, List.foldl_nil]
      rw [← h.pending.1, ← h.pending.2]
    rw [hlen, hspan, hkept]
    refine ⟨h.indexed, fun va => ?_, rfl, rfl⟩
    rw [onPages]
    cases s.code.ready? va <;> rfl
  · refine h.dropped_write hlen ?_ t
    rcases h.mem.inv.change_write address bytes with ⟨e, he, -⟩ | ⟨he, -⟩ | ⟨-, hw⟩
    · rw [show (Op.run env s.mem (.write address bytes)).1 = _ from he] at hok
      cases hok
    · rw [show (Op.run env s.mem (.write address bytes)).1 = _ from he] at hok
      cases hok
    · rcases hw.granted with rfl | hg
      · exact absurd hlen (lt_irrefl 0)
      · exact hg.1

/-- **The step lemma.** -/
theorem Tidy.next (hd : decode.Sound) (h : Tidy cfg env s) {a : CodeAction ι}
    (hn : s.next cfg decode env ord a = some s') : Tidy cfg env s' := by
  -- a call that was refused, and one that needs no more than what it does to memory
  have hcall {op : Op} {m' : GuestMemory} (hs : Step env s.mem op m') :
      Tidy cfg env ({ s with mem := m' } : JitSys ι) :=
    ⟨.step h.mem trivial hs, h.indexed, h.pending⟩
  have hclear (hooks : Option HookWindow) (fastApi : List ℕ) (i : ι) : Tidy cfg env
      (⟨s.mem, s.code.clearCompiled, Function.update s.engines i ⟨hooks, fastApi, .clear⟩⟩ :
        JitSys ι) := ⟨h.mem, indexed_clearCompiled _, h.pending⟩
  cases a with
  | call op =>
    rw [JitSys.next] at hn
    obtain ⟨m', hs, ⟨-, rfl⟩ | ⟨-, rfl⟩⟩ := afterCall_eq_some hn
    all_goals exact hcall hs
  | dispatch i rip emitted =>
    obtain rfl := Option.some.inj hn
    exact h.looked hd looksAt_dispatch.looked
  | safePoint i =>
    obtain rfl := Option.some.inj hn
    refine h.put (fun _ => false) ⟨?_, fun va => ?_, ?_⟩
    all_goals rw [drainPendingCodeWrites]
    all_goals simp only [h.pending.1, h.pending.2, Bool.false_eq_true, if_false, List.foldl_nil]
    · exact h.indexed.congr rfl rfl rfl
    · exact ⟨trivial, trivial⟩
  | chainLookup i va =>
    obtain rfl := Option.some.inj hn
    exact ⟨h.mem, h.indexed, h.pending⟩
  | precompileAt i address emitted =>
    obtain rfl := Option.some.inj hn
    exact h.looked hd precompileAt_looked
  | memWrite i address bytes =>
    rw [JitSys.next] at hn
    obtain ⟨m', hs, ⟨hok, rfl⟩ | ⟨-, rfl⟩⟩ := afterCall_eq_some hn
    · exact (hcall hs).put _ (h.memWrite hok _)
    · exact hcall hs
  | virtualFree i addr size freeType =>
    rw [JitSys.next] at hn
    obtain ⟨m', hs, ⟨-, rfl⟩ | ⟨-, rfl⟩⟩ := afterCall_eq_some hn
    · cases codeInvSpanForFree s.mem addr size freeType with
      | some r => exact (hcall hs).invalidate i r.1 r.2
      | none => exact hcall hs
    · exact hcall hs
  | virtualProtect i addr size newProtect =>
    rw [JitSys.next] at hn
    obtain ⟨m', hs, ⟨-, rfl⟩ | ⟨-, rfl⟩⟩ := afterCall_eq_some hn
    · split_ifs
      · exact (hcall hs).invalidate i addr size
      · exact hcall hs
    · exact hcall hs
  | flushInstructionCache i addr size =>
    obtain rfl := Option.some.inj hn
    split_ifs
    · exact h.put (fun _ => true)
        ⟨h.indexed.dropAll _, get?_dropAll _ _, dropAll_pending _ _⟩
    · exact h.invalidate i addr size
  | installRuntimeHooks i hooks =>
    obtain rfl := Option.some.inj hn
    exact hclear _ _ i
  | configureFastPath i fastApi =>
    obtain rfl := Option.some.inj hn
    exact hclear _ _ i

/-- **The run lemma.** -/
theorem Runs.tidy (hd : decode.Sound) (h : Runs cfg decode env guard s) : Tidy cfg env s := by
  refine GuardedReach.invariant (I := Tidy cfg env) ?_ ?_ h
  · rintro s ⟨⟨host, hm⟩, hc, -⟩
    refine ⟨?_, ?_, ?_⟩
    · rw [hm]
      exact reachable_new host
    · rw [hc]
      exact indexed_new
    · rw [hc]
      exact ⟨rfl, rfl⟩
  · rintro s a s' hs - ⟨ord, hn⟩
    exact hs.next hd hn

/-- **The index has the number of blocks on each page**, the names are those of the blocks that have
one, and so dropping code drops exactly the blocks that overlap the range. -/
theorem index_counts_blocks (hd : decode.Sound) (h : Runs cfg decode env guard s) :
    (∀ p, s.code.codePages.get? p =
      if s.code.blocksOn p = 0 then none else some (s.code.blocksOn p)) ∧
    (∀ va, s.code.chainIds.get? va =
      if cfg.chainEnabled then (s.code.ready? va).bind CompiledBlock.funcId else none) ∧
    ∀ ord i addr len va, (s.invalidate cfg ord i addr len).code.cache.get? va =
      if 0 < len ∧ s.code.hits addr (satAdd addr len) va = true then none
      else s.code.cache.get? va := by
  have ht := h.tidy hd
  refine ⟨ht.indexed.counts, ht.indexed.ids, fun ord i addr len va => ?_⟩
  rcases Nat.eq_zero_or_pos len with rfl | hlen
  · rw [JitSys.invalidate, invalidateCodeRange_zero, if_neg fun h => absurd h.1 (lt_irrefl 0)]
    rfl
  · refine ((ht.indexed.invalidate hlen ord _ addr).get? va).trans ?_
    by_cases hv : s.code.hits addr (satAdd addr len) va = true
    · rw [if_pos hv, if_pos ⟨hlen, hv⟩]
    · rw [if_neg hv, if_neg fun h => hv h.2]

/-- **A write of the host drops the blocks that have a byte on a page it writes, and no others**,
unless it writes more than 256 pages: then it drops all. A refused one drops none. -/
theorem host_write_drops (hd : decode.Sound) (h : Runs cfg decode env guard s) {address : ℕ}
    {bytes : List UInt8} (hn : s.next cfg decode env ord (.memWrite i address bytes) = some s') :
    if isOk (Op.run env s.mem (.write address bytes)).1 = true then
      ∀ va c, s'.code.ready? va = some c ↔ s.code.ready? va = some c ∧
        (codePageSpan address (address + bytes.length)).length ≤ PENDING_WRITE_PAGE_CAP ∧
        ∀ x y, c.guestStart ≤ x → x < c.guestEnd → address ≤ y → y < address + bytes.length →
          x / 0x1000 ≠ y / 0x1000
    else s'.code = s.code := by
  have ht := h.tidy hd
  rw [JitSys.next] at hn
  obtain ⟨m', hs, ⟨hok, rfl⟩ | ⟨hno, rfl⟩⟩ := afterCall_eq_some hn
  · rw [if_pos hok]
    intro va c
    rw [show (JitSys.put _ i _).code.ready? va = _ from (ht.memWrite hok _).ready? va]
    have hpages (hr : s.code.ready? va = some c) :
        s.code.onPages (codePageSpan address (address + bytes.length)) va = false ↔
        ∀ x y, c.guestStart ≤ x → x < c.guestEnd → address ≤ y → y < address + bytes.length →
          x / 0x1000 ≠ y / 0x1000 := by
      rw [onPages, hr, Option.any_some, List.any_eq_false]
      simp only [List.contains_iff_mem, CompiledBlock.pages, mem_codePageSpan]
      constructor
      · intro hall x y h1 h2 h3 h4 he
        exact hall _ ⟨y, h3, h4, rfl⟩ ⟨x, h1, h2, he⟩
      · rintro hall p ⟨y, h3, h4, rfl⟩ ⟨x, h1, h2, he⟩
        exact hall x y h1 h2 h3 h4 he
    by_cases hmany : (codePageSpan address (address + bytes.length)).length ≤ PENDING_WRITE_PAGE_CAP
    · rw [decide_eq_false (not_lt.mpr hmany), Bool.false_or]
      constructor
      · intro hr
        split_ifs at hr with hp
        exact ⟨hr, hmany, (hpages hr).mp (Bool.eq_false_iff.mpr hp)⟩
      · rintro ⟨hr, -, hall⟩
        rw [(hpages hr).mpr hall]
        exact hr
    · rw [decide_eq_true (not_le.mp hmany), Bool.true_or, if_pos rfl]
      exact iff_of_false (fun hr => Option.some_ne_none c hr.symm) fun hc => hmany hc.2.1
  · rw [if_neg (by rw [hno]; exact Bool.false_ne_true)]

/-! ### Two engines -/

/-- What an allowed action leads to is in a run. -/
theorem Runs.get (h : Runs cfg decode env guard s) {a : CodeAction ι} (hg : guard s a)
    (ord : HashOrder) (hs : (s.next cfg decode env ord a).isSome = true) :
    Runs cfg decode env guard ((s.next cfg decode env ord a).get hs) :=
  .step h hg ⟨ord, (Option.some_get hs).symm⟩

/-- The hash map is gone through by address. -/
def byAddress : HashOrder := ⟨OrdMap.entries, fun _ => .refl _⟩

/-- Everything is compiled at the first visit. -/
def eager : JitConfig := ⟨true, true, 0, 0⟩

/-- Two `nop` and a `ret` at 0x20000, which the first engine has compiled. -/
theorem exists_compiled : ∃ s : JitSys (Fin 2),
    Runs eager nopRetDecoder .fourK (fun _ _ => True) s ∧
    (s.code.ready? 0x20000).isSome = true ∧ s.code.codePages.get? 0x20 = some 1 ∧
    (s.next eager nopRetDecoder .fourK byAddress (.memWrite 1 0x20800 [0xcc])).isSome = true ∧
    isOk (Op.run .fourK s.mem (.write 0x20800 [0xcc])).1 = true := by
  have h₀ : Runs eager nopRetDecoder .fourK (fun _ _ => True)
      (⟨GuestMemory.new .roomy, .new, fun _ => .new⟩ : JitSys (Fin 2)) :=
    .init ⟨⟨_, rfl⟩, rfl, fun _ => rfl⟩
  have h₁ := h₀.get (a := .call (.virtualAlloc 0x20000 0x1000 (memReserve + memCommit)
    Protect.pageExecuteReadwrite)) trivial byAddress (by decide +kernel)
  have h₂ := h₁.get (a := .memWrite 0 0x20000 [0x90, 0x90, 0xc3]) trivial byAddress
    (by decide +kernel)
  have h₃ := h₂.get (a := .dispatch 0 0x20000 (some (0x7000, some 1))) trivial byAddress rfl
  exact ⟨_, h₃, by decide +kernel, by decide +kernel, by decide +kernel, by decide +kernel⟩

/-- One block is on the page, and a range on it drops the block. -/
theorem index_counts_blocks_compiled : ∃ s : JitSys (Fin 2), s.code.codePages.get? 0x20 = some 1 ∧
    s.code.codePages.get? 0x20 =
      (if s.code.blocksOn 0x20 = 0 then none else some (s.code.blocksOn 0x20)) ∧
    (s.invalidate eager byAddress 1 0x20002 0x10).code.cache.get? 0x20000 =
      if 0 < 0x10 ∧ s.code.hits 0x20002 (satAdd 0x20002 0x10) 0x20000 = true then none
      else s.code.cache.get? 0x20000 := by
  obtain ⟨s, h, -, hpage, -⟩ := exists_compiled
  obtain ⟨h1, -, h3⟩ := index_counts_blocks nopRetDecoder_sound h
  exact ⟨s, hpage, h1 0x20, h3 byAddress 1 0x20002 0x10 0x20000⟩

/-- Another engine writes on the page. -/
theorem host_write_drops_compiled : ∃ s s' : JitSys (Fin 2),
    (s.code.ready? 0x20000).isSome = true ∧
    s.next eager nopRetDecoder .fourK byAddress (.memWrite 1 0x20800 [0xcc]) = some s' ∧
    if isOk (Op.run .fourK s.mem (.write 0x20800 [0xcc])).1 = true then
      ∀ va c, s'.code.ready? va = some c ↔ s.code.ready? va = some c ∧
        (codePageSpan 0x20800 (0x20800 + 1)).length ≤ PENDING_WRITE_PAGE_CAP ∧
        ∀ x y, c.guestStart ≤ x → x < c.guestEnd → 0x20800 ≤ y → y < 0x20800 + 1 →
          x / 0x1000 ≠ y / 0x1000
    else s'.code = s.code := by
  obtain ⟨s, h, hready, -, hsome, -⟩ := exists_compiled
  obtain ⟨s', hn⟩ := Option.isSome_iff_exists.mp hsome
  exact ⟨s, s', hready, hn, host_write_drops nopRetDecoder_sound h hn⟩

end JitSys

end Wie
