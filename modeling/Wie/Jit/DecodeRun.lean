import Wie.Jit.Decode
import Wie.Mem.Fetch

/-!
# A block and the interpreter

Compiled code stands for the instructions that the interpreter would fetch from the start of the
block on. The interpreter fetches with execute permission and asks the hook at every instruction;
the front end reads with read permission and asks the hook once.

## Main definitions

* `Decoder.Sound` — what is asked of the decoder
* `stepFetch` — how the interpreter comes to its next instruction
* `blockFlow` — the instructions from an address on, up to the end of a block
* `Fetches`, `BlockMatches` — the interpreter fetches the instructions of a block

## Main results

* `blockMatches_iff` — it does so exactly where every instruction may be executed and none is a stop
* `not_blockMatches_samples` — code that may not be executed, and a stop in a block
-/

namespace Wie

/-- What the decoder is relied on for: an instruction is read off the bytes it consists of. -/
structure Decoder.Sound (decode : Decoder) : Prop where
  /-- It has at least one byte, and all of its bytes are there. -/
  len : ∀ {bs ip i}, decode bs ip = some i → 0 < i.len ∧ i.len ≤ bs.length
  /-- The next instruction follows. -/
  nextIp : ∀ {bs ip i}, decode bs ip = some i → i.nextIp = (ip + i.len) % 2 ^ 64
  /-- The bytes behind it do not matter. -/
  take : ∀ {bs bs' ip i}, decode bs ip = some i → i.len ≤ bs'.length →
    bs'.take i.len = bs.take i.len → decode bs' ip = some i

/-- How the interpreter's `step` comes to an instruction. -/
inductive StepFetch
  /-- The host is to stop. -/
  | hostStop
  /-- The fetch is denied. -/
  | invalidMemory
  /-- There is no valid instruction. -/
  | invalidInstruction
  /-- The instruction is executed. -/
  | insn (i : Instruction)

/-- The part of `step` before the instruction is executed. -/
def stepFetch (decode : Decoder) (env : HostEnv) (m : GuestMemory) (hooks : Option HookWindow)
    (rip : ℕ) : StepFetch :=
  if hooks.any (·.shouldHostStop rip) then .hostStop
  else
    match (m.fetchInto env rip FETCH_WINDOW).1 with
    | .ok bytes =>
      match decode bytes rip with
      | some i => .insn i
      | none => .invalidInstruction
    | _ => .invalidMemory

/-- The reads of the front end. -/
def GuestMemory.jitRead (m : GuestMemory) (env : HostEnv) (address len : ℕ) : Option (List UInt8) :=
  match (m.read env address len).1 with
  | .ok bytes => some bytes
  | _ => none

/-- The interpreter fetches the given instructions from `a` on and comes to `b`; a jump to the next
instruction is not among them. -/
inductive Fetches (fetch : ℕ → StepFetch) : ℕ → List Instruction → ℕ → Prop
  /-- No more instructions. -/
  | done (a : ℕ) : Fetches fetch a [] a
  /-- An instruction. -/
  | kept {a b : ℕ} {i : Instruction} {is : List Instruction} (h : fetch a = .insn i)
    (hs : i.isSkip = false) (hr : Fetches fetch i.nextIp is b) : Fetches fetch a (i :: is) b
  /-- A jump to the next instruction. -/
  | skipped {a b : ℕ} {i : Instruction} {is : List Instruction} (h : fetch a = .insn i)
    (hs : i.isSkip = true) (hr : Fetches fetch i.nextIp is b) : Fetches fetch a is b

/-- **A block has the instructions that the interpreter executes there**, and its bytes are those of
the instructions, all of which may be executed. -/
structure BlockMatches (decode : Decoder) (env : HostEnv) (m : GuestMemory)
    (hooks : Option HookWindow) (start : ℕ) (insns : List Instruction) (bytesLen : ℕ) : Prop where
  /-- The instructions. -/
  fetches : Fetches (stepFetch decode env m hooks) start insns (start + bytesLen)
  /-- The bytes. -/
  executable : m.Granted .execute start bytesLen

/-- The instructions that stand in memory from `a` on, up to the first that ends a block or cannot
be in one; `n` bounds their number. -/
def blockFlow (decode : Decoder) (read : ℕ → ℕ → Option (List UInt8)) :
    (n : ℕ) → (a : ℕ) → List (ℕ × Instruction)
  | 0, _ => []
  | n + 1, a =>
    match (read a FETCH_WINDOW).bind fun buf => decode buf a with
    | none => []
    | some i =>
      if i.classifyTerminator.isSome then
        if i.isSkip then (a, i) :: blockFlow decode read n i.nextIp else [(a, i)]
      else if !i.isLowerable then []
      else if i.isStringOp then [(a, i)]
      else (a, i) :: blockFlow decode read n i.nextIp

/-! ### The scan and the flow -/

/-- The instructions of a flow that are in the block. -/
def keptOf (flow : List (ℕ × Instruction)) : List Instruction :=
  (flow.map Prod.snd).filter fun i => !i.isSkip

/-- The number of bytes of a flow. -/
def flowLen (flow : List (ℕ × Instruction)) : ℕ := (flow.map fun p => p.2.len).sum

section

variable {decode : Decoder} {read : ℕ → ℕ → Option (List UInt8)} {env : HostEnv} {m : GuestMemory}
  {hooks : Option HookWindow} {start : ℕ}

/-- Every instruction of the flow has at most fifteen bytes, and follows the one before it. -/
inductive Linear (decode : Decoder) (read : ℕ → ℕ → Option (List UInt8)) :
    ℕ → List (ℕ × Instruction) → Prop
  /-- The end. -/
  | nil (a : ℕ) : Linear decode read a []
  /-- One more instruction. -/
  | cons {a : ℕ} {i : Instruction} {rest : List (ℕ × Instruction)} {buf : List UInt8}
    (hb : read a FETCH_WINDOW = some buf) (hd : decode buf a = some i)
    (hr : Linear decode read i.nextIp rest) : Linear decode read a ((a, i) :: rest)

theorem blockFlow_linear : ∀ (n a : ℕ), Linear decode read a (blockFlow decode read n a) := by
  intro n
  induction n with
  | zero => exact fun a => .nil a
  | succ n ih =>
    intro a
    rw [blockFlow]
    cases hb : read a FETCH_WINDOW with
    | none => exact .nil a
    | some buf =>
      simp only [Option.bind_some]
      cases hd : decode buf a with
      | none => exact .nil a
      | some i =>
        simp only
        split_ifs
        · exact .cons hb hd (ih _)
        · exact .cons hb hd (.nil _)
        · exact .nil a
        · exact .cons hb hd (.nil _)
        · exact .cons hb hd (ih _)

/-- The instructions of the flow are read off memory. -/
theorem Linear.decoded {a : ℕ} {flow : List (ℕ × Instruction)} (h : Linear decode read a flow)
    {p : ℕ × Instruction} (hp : p ∈ flow) :
    ∃ buf, read p.1 FETCH_WINDOW = some buf ∧ decode buf p.1 = some p.2 := by
  induction h with
  | nil a => cases hp
  | cons hb hd _ ih =>
    rcases List.mem_cons.mp hp with rfl | hp
    · exact ⟨_, hb, hd⟩
    · exact ih hp

theorem flowLen_cons (a : ℕ) (i : Instruction) (rest : List (ℕ × Instruction)) :
    flowLen ((a, i) :: rest) = i.len + flowLen rest := by simp [flowLen]

theorem keptOf_skip {a : ℕ} {i : Instruction} {rest : List (ℕ × Instruction)}
    (h : i.isSkip = true) : keptOf ((a, i) :: rest) = keptOf rest := by simp [keptOf, h]

theorem keptOf_kept {a : ℕ} {i : Instruction} {rest : List (ℕ × Instruction)}
    (h : i.isSkip = false) : keptOf ((a, i) :: rest) = i :: keptOf rest := by simp [keptOf, h]

/-- Addresses do not wrap around in a block. -/
theorem Decoder.Sound.next_of_read (hd : decode.Sound)
    (hbound : ∀ a b, read a FETCH_WINDOW = some b → a + FETCH_WINDOW < 2 ^ 64)
    (hread : ∀ a n b, read a n = some b → b.length = n) {a : ℕ} {buf : List UInt8}
    {i : Instruction} (hb : read a FETCH_WINDOW = some buf) (hdec : decode buf a = some i) :
    i.nextIp = a + i.len := by
  have h1 := hbound _ _ hb
  have h2 := (hd.len hdec).2
  rw [hread _ _ _ hb] at h2
  rw [hd.nextIp hdec, Nat.mod_eq_of_lt (by omega)]

theorem isSkip_eq_false {i : Instruction} (h : i.classifyTerminator = none) : i.isSkip = false := by
  rw [Instruction.isSkip, h]
  rfl

/-- **The scan collects the flow.** -/
theorem scanBlock_flow (hd : decode.Sound) (hread : ∀ a n b, read a n = some b → b.length = n) :
    ∀ (n : ℕ) (s : BlockScan), s.bytesLen + 15 * n < 2 ^ 32 →
      (scanBlock decode read n s).insns = s.insns ++ keptOf (blockFlow decode read n s.rip) ∧
      (scanBlock decode read n s).bytesLen = s.bytesLen + flowLen (blockFlow decode read n s.rip) := by
  intro n
  induction n with
  | zero => exact fun s _ => ⟨(List.append_nil _).symm, rfl⟩
  | succ n ih =>
    intro s hs
    rw [scanBlock, blockFlow]
    cases hb : read s.rip FETCH_WINDOW with
    | none => exact ⟨(List.append_nil _).symm, rfl⟩
    | some buf =>
      simp only [Option.bind_some]
      cases hdec : decode buf s.rip with
      | none => exact ⟨(List.append_nil _).symm, rfl⟩
      | some i =>
        have hlen := (hd.len hdec).2
        rw [hread _ _ _ hb] at hlen
        have hsat : satAdd32 s.bytesLen i.len = s.bytesLen + i.len := by
          rw [satAdd32, FETCH_WINDOW] at *
          omega
        have hih : ∀ insns : List Instruction,
            (scanBlock decode read n ⟨insns, i.nextIp, s.bytesLen + i.len, s.term⟩).insns =
              insns ++ keptOf (blockFlow decode read n i.nextIp) ∧
            (scanBlock decode read n ⟨insns, i.nextIp, s.bytesLen + i.len, s.term⟩).bytesLen =
              s.bytesLen + i.len + flowLen (blockFlow decode read n i.nextIp) := fun insns =>
          ih ⟨insns, i.nextIp, s.bytesLen + i.len, s.term⟩ (by
            have : FETCH_WINDOW = 15 := rfl
            show s.bytesLen + i.len + 15 * n < 2 ^ 32
            omega)
        simp only [hsat]
        cases ht : i.classifyTerminator with
        | some t =>
          simp only [Option.isSome_some, if_true]
          by_cases hsk : i.isSkip = true
          · rw [if_pos hsk, if_pos hsk, keptOf_skip hsk, flowLen_cons, ← Nat.add_assoc]
            exact hih s.insns
          · rw [if_neg hsk, if_neg hsk, keptOf_kept (by simpa using hsk), flowLen_cons]
            exact ⟨rfl, rfl⟩
        | none =>
          have hsk := isSkip_eq_false ht
          simp only [Option.isSome_none, Bool.false_eq_true, if_false]
          by_cases hl : i.isLowerable = true
          · simp only [hl, Bool.not_true, Bool.false_eq_true, if_false]
            by_cases hstr : i.isStringOp = true
            · rw [if_pos hstr, if_pos hstr, keptOf_kept hsk, flowLen_cons]
              exact ⟨rfl, rfl⟩
            · rw [if_neg hstr, if_neg hstr, keptOf_kept hsk, flowLen_cons, ← Nat.add_assoc,
                List.append_cons s.insns i (keptOf _)]
              exact hih (s.insns ++ [i])
          · simp only [hl, Bool.not_false, if_true]
            exact ⟨(List.append_nil _).symm, rfl⟩

/-! ### The interpreter along the flow -/

/-- Every instruction of the flow is fetched by the interpreter. -/
theorem fetches_flow {fetch : ℕ → StepFetch} (hd : decode.Sound)
    (hbound : ∀ a b, read a FETCH_WINDOW = some b → a + FETCH_WINDOW < 2 ^ 64)
    (hread : ∀ a n b, read a n = some b → b.length = n) {flow : List (ℕ × Instruction)} {a : ℕ}
    (hl : Linear decode read a flow) (hf : ∀ p ∈ flow, fetch p.1 = .insn p.2) :
    Fetches fetch a (keptOf flow) (a + flowLen flow) := by
  induction hl with
  | nil a => exact .done a
  | @cons a i rest buf hb hdec hr ih =>
    have hnext := hd.next_of_read hbound hread hb hdec
    have hrest := ih fun p hp => hf p (.tail _ hp)
    rw [flowLen_cons, ← Nat.add_assoc, ← hnext]
    cases hsk : i.isSkip with
    | true =>
      rw [keptOf_skip hsk]
      exact .skipped (hf (a, i) (.head _)) hsk hrest
    | false =>
      rw [keptOf_kept hsk]
      exact .kept (hf (a, i) (.head _)) hsk hrest

/-- The interpreter fetches the flow when it comes to the end of it. -/
theorem flow_of_fetches {fetch : ℕ → StepFetch} (hd : decode.Sound)
    (hbound : ∀ a b, read a FETCH_WINDOW = some b → a + FETCH_WINDOW < 2 ^ 64)
    (hread : ∀ a n b, read a n = some b → b.length = n)
    (hdet : ∀ a buf i j, read a FETCH_WINDOW = some buf → decode buf a = some i →
      fetch a = .insn j → j = i)
    {flow : List (ℕ × Instruction)} {a : ℕ} (hl : Linear decode read a flow)
    (h : Fetches fetch a (keptOf flow) (a + flowLen flow)) : ∀ p ∈ flow, fetch p.1 = .insn p.2 := by
  induction hl with
  | nil a => exact fun p hp => by cases hp
  | @cons a i rest buf hb hdec hr ih =>
    have hnext := hd.next_of_read hbound hread hb hdec
    have hpos := (hd.len hdec).1
    rw [flowLen_cons, ← Nat.add_assoc, ← hnext] at h
    have hhead : ∀ j, fetch a = .insn j → j = i := fun j hj => hdet a buf i j hb hdec hj
    -- the interpreter is at the first instruction of the flow, and can only fetch that
    have hstep : fetch a = .insn i ∧ Fetches fetch i.nextIp (keptOf rest) (i.nextIp + flowLen rest) := by
      generalize hk : keptOf ((a, i) :: rest) = is at h
      generalize he : i.nextIp + flowLen rest = b at h
      cases h with
      | done => omega
      | @kept _ _ j js hj hs hrest =>
        obtain rfl := hhead j hj
        rw [keptOf_kept hs] at hk
        obtain ⟨-, rfl⟩ := List.cons.inj hk
        exact ⟨hj, he ▸ hrest⟩
      | @skipped _ _ j _ hj hs hrest =>
        obtain rfl := hhead j hj
        rw [keptOf_skip hs] at hk
        exact ⟨hj, hk ▸ hrest⟩
    intro p hp
    rcases List.mem_cons.mp hp with rfl | hp
    · exact hstep.1
    · exact ih hstep.2 p hp

/-! ### One fetch -/

/-- The reads of the front end return the content of memory. -/
theorem jitRead_eq (h : GuestMemory.Inv env m) {a n : ℕ} {buf : List UInt8}
    (hb : m.jitRead env a n = some buf) :
    buf = m.bytesAt a n ∧ m.Granted .read a n := by
  rw [GuestMemory.jitRead] at hb
  cases hr : (m.read env a n).1 with
  | ok v =>
    rw [hr] at hb
    obtain rfl := Option.some.inj hb
    have hg := (h.read_isOk a n).mp ⟨v, hr⟩
    rw [h.read_eq hg] at hr
    exact ⟨(Outcome.ok.inj hr).symm, hg⟩
  | error e => rw [hr] at hb; cases hb
  | crash => rw [hr] at hb; cases hb

theorem length_bytesAt (a n : ℕ) : (m.bytesAt a n).length = n := by simp [GuestMemory.bytesAt]

theorem take_bytesAt {a k n : ℕ} (h : k ≤ n) : (m.bytesAt a n).take k = m.bytesAt a k := by
  rw [GuestMemory.bytesAt, ← List.map_take, List.take_range, min_eq_left h, GuestMemory.bytesAt]

theorem length_jitRead (h : GuestMemory.Inv env m) {a n : ℕ} {buf : List UInt8}
    (hb : m.jitRead env a n = some buf) : buf.length = n := by
  rw [(jitRead_eq h hb).1, length_bytesAt]

theorem jitRead_lt_top (h : GuestMemory.Inv env m) {a : ℕ} {buf : List UInt8}
    (hb : m.jitRead env a FETCH_WINDOW = some buf) : a + FETCH_WINDOW < 2 ^ 64 := by
  have hw : FETCH_WINDOW = 15 := rfl
  have := h.lt_top ((jitRead_eq h hb).2 (a + 14) (by omega) (by omega))
  omega

theorem GuestMemory.Granted.mono {kind : AccessKind} {a k n : ℕ} (h : m.Granted kind a n)
    (hk : k ≤ n) : m.Granted kind a k := fun x h1 h2 => h x h1 (by omega)

/-- **The interpreter fetches an instruction that the front end reads** where no stop is set and
its bytes may be executed; it fetches no other one there. -/
theorem stepFetch_iff (hd : decode.Sound) (h : GuestMemory.Inv env m) {a : ℕ} {buf : List UInt8}
    {i j : Instruction} (hb : m.jitRead env a FETCH_WINDOW = some buf)
    (hdec : decode buf a = some i) :
    stepFetch decode env m hooks a = .insn j ↔
      j = i ∧ hooks.any (·.shouldHostStop a) = false ∧ m.Granted .execute a i.len := by
  obtain ⟨rfl, -⟩ := jitRead_eq h hb
  have hpos := (hd.len hdec).1
  have hlen : i.len ≤ FETCH_WINDOW := by simpa [length_bytesAt] using (hd.len hdec).2
  have hw : FETCH_WINDOW = 15 := rfl
  -- both see the bytes at `a`, as far as each of them reads
  have hsame : ∀ {n k : ℕ} {i : Instruction}, decode (m.bytesAt a n) a = some i → i.len ≤ k →
      decode (m.bytesAt a k) a = some i := fun {n k i} hn hk => by
    have hln : i.len ≤ n := by simpa [length_bytesAt] using (hd.len hn).2
    refine hd.take hn (by rwa [length_bytesAt]) ?_
    rw [take_bytesAt hk, take_bytesAt hln]
  have hfetch : (m.fetchInto env a FETCH_WINDOW).1 = (m.fetchLoop env a 15).1 := rfl
  rw [stepFetch, hfetch]
  cases hstop : hooks.any (·.shouldHostStop a) with
  | true => simp
  | false =>
    rw [if_neg Bool.false_ne_true]
    rcases h.fetchLoop_spec a 15 with ⟨n, hn, hn15, hg, hmax, hok⟩ | ⟨hno, e, he⟩
    · rw [hok]
      show (match decode (m.bytesAt a n) a with
        | some i => StepFetch.insn i
        | none => .invalidInstruction) = .insn j ↔ _
      cases hdn : decode (m.bytesAt a n) a with
      | none =>
        refine ⟨nofun, fun ⟨_, _, hgi⟩ => ?_⟩
        have hni : n < i.len := by
          by_contra hge
          rw [hsame hdec (not_lt.mp hge)] at hdn
          cases hdn
        exact absurd (hgi.mono hni) (hmax (by omega))
      | some k =>
        have hkn : k.len ≤ n := by simpa [length_bytesAt] using (hd.len hdn).2
        obtain rfl : k = i := by
          have hk := hsame hdn (k := FETCH_WINDOW) (by omega)
          rw [hdec] at hk
          exact (Option.some.inj hk).symm
        refine ⟨fun hf => ?_, fun ⟨hj, _⟩ => by rw [hj]⟩
        obtain rfl := StepFetch.insn.inj hf
        exact ⟨rfl, rfl, hg.mono hkn⟩
    · rw [he]
      exact ⟨nofun, fun ⟨_, _, hgi⟩ => absurd (hgi.mono hpos) (hno (by decide))⟩

/-- The bytes of a flow are those of its instructions. -/
theorem granted_flow (hd : decode.Sound)
    (hbound : ∀ a b, read a FETCH_WINDOW = some b → a + FETCH_WINDOW < 2 ^ 64)
    (hread : ∀ a n b, read a n = some b → b.length = n) {kind : AccessKind}
    {flow : List (ℕ × Instruction)} {a : ℕ} (hl : Linear decode read a flow) :
    m.Granted kind a (flowLen flow) ↔ ∀ p ∈ flow, m.Granted kind p.1 p.2.len := by
  induction hl with
  | nil a =>
    refine ⟨fun _ p hp => absurd hp List.not_mem_nil, fun _ x h1 h2 => ?_⟩
    rw [show flowLen [] = 0 from rfl] at h2
    omega
  | @cons a i rest buf hb hdec hr ih =>
    have hnext := hd.next_of_read hbound hread hb hdec
    rw [flowLen_cons, List.forall_mem_cons, ← ih, hnext]
    constructor
    · intro hg
      have hhead : m.Granted kind a i.len := hg.mono (Nat.le_add_right _ _)
      exact ⟨hhead, fun x h1 h2 => hg x (by omega) (by omega)⟩
    · rintro ⟨h1, h2⟩ x hx hx'
      rcases Nat.lt_or_ge x (a + i.len) with hlt | hge
      · exact h1 x hx hlt
      · exact h2 x hge (by omega)

end

/-- What the block is made of. -/
theorem pure_of_decode {decode : Decoder} {read : ℕ → ℕ → Option (List UInt8)}
    {hooks : Option HookWindow} {start endRip bytesLen : ℕ} {insns : List Instruction}
    {term : Option BlockTerm}
    (h : decodePureGprBlock decode read hooks start = .pure insns endRip bytesLen term) :
    (scanBlock decode read MAX_BLOCK_INSNS ⟨[], start, 0, none⟩).insns = insns ∧
      (scanBlock decode read MAX_BLOCK_INSNS ⟨[], start, 0, none⟩).bytesLen = bytesLen := by
  rw [decodePureGprBlock] at h
  generalize scanBlock decode read MAX_BLOCK_INSNS ⟨[], start, 0, none⟩ = s at h
  cases hs : hooks.any (·.shouldHostStop start) with
  | true => rw [hs, if_pos rfl] at h; cases h
  | false =>
    rw [hs, if_neg Bool.false_ne_true] at h
    -- the bound on the number of instructions does not matter
    have hk : ∀ k : ℕ, (if s.insns.length < k then BlockKind.notPure
        else .pure s.insns s.rip s.bytesLen s.term) = .pure insns endRip bytesLen term →
        s.insns = insns ∧ s.bytesLen = bytesLen := fun k hk => by
      by_cases hlt : s.insns.length < k
      · rw [if_pos hlt] at hk; cases hk
      · rw [if_neg hlt] at hk
        obtain ⟨h1, -, h2, -⟩ := BlockKind.pure.inj hk
        exact ⟨h1, h2⟩
    exact hk _ h

/-- **A block is what the interpreter executes exactly where it may.** The condition is that every
instruction from the start of the block to its end lies in pages that may be executed, and that
none is a stop. -/
theorem blockMatches_iff {decode : Decoder} {env : HostEnv} {m : GuestMemory}
    {hooks : Option HookWindow} {start endRip bytesLen : ℕ} {insns : List Instruction}
    {term : Option BlockTerm} (hd : decode.Sound) {guard : GuestMemory → GuestMemory.Op → Prop}
    (hm : GuestMemory.Reachable env guard m)
    (hblock : decodePureGprBlock decode (m.jitRead env) hooks start =
      .pure insns endRip bytesLen term) :
    BlockMatches decode env m hooks start insns bytesLen ↔
      ∀ p ∈ blockFlow decode (m.jitRead env) MAX_BLOCK_INSNS start,
        hooks.any (·.shouldHostStop p.1) = false ∧ m.Granted .execute p.1 p.2.len := by
  have h := hm.inv
  have hbound : ∀ a b, m.jitRead env a FETCH_WINDOW = some b → a + FETCH_WINDOW < 2 ^ 64 :=
    fun a b hb => jitRead_lt_top h hb
  have hread : ∀ a n b, m.jitRead env a n = some b → b.length = n :=
    fun a n b hb => length_jitRead h hb
  have hlin := @blockFlow_linear decode (m.jitRead env) MAX_BLOCK_INSNS start
  have hscan := scanBlock_flow hd hread MAX_BLOCK_INSNS ⟨[], start, 0, none⟩
    (show 0 + 15 * 96 < 2 ^ 32 by decide)
  obtain ⟨rfl, rfl⟩ : insns = keptOf (blockFlow decode (m.jitRead env) MAX_BLOCK_INSNS start) ∧
      bytesLen = flowLen (blockFlow decode (m.jitRead env) MAX_BLOCK_INSNS start) := by
    obtain ⟨h1, h2⟩ := pure_of_decode hblock
    rw [← h1, ← h2, hscan.1, hscan.2]
    exact ⟨List.nil_append _, Nat.zero_add _⟩
  have hmem : ∀ p ∈ blockFlow decode (m.jitRead env) MAX_BLOCK_INSNS start,
      (stepFetch decode env m hooks p.1 = .insn p.2 ↔
        hooks.any (·.shouldHostStop p.1) = false ∧ m.Granted .execute p.1 p.2.len) := fun p hp => by
    obtain ⟨buf, hb, hdec⟩ := hlin.decoded hp
    rw [stepFetch_iff hd h hb hdec]
    exact ⟨fun hj => hj.2, fun hj => ⟨rfl, hj⟩⟩
  constructor
  · intro hmatch p hp
    refine (hmem p hp).mp (flow_of_fetches hd hbound hread ?_ hlin hmatch.fetches p hp)
    exact fun a buf i j hb hdec hj => ((stepFetch_iff hd h hb hdec).mp hj).1
  · intro hall
    exact ⟨fetches_flow hd hbound hread hlin fun p hp => (hmem p hp).mpr (hall p hp),
      (granted_flow hd hbound hread hlin).mpr fun p hp => (hall p hp).2⟩

/-- The interpreter is at the end, or fetches one instruction and goes on. -/
theorem Fetches.head {fetch : ℕ → StepFetch} {a b : ℕ} {is : List Instruction}
    (h : Fetches fetch a is b) :
    a = b ∨ ∃ i is', fetch a = .insn i ∧ Fetches fetch i.nextIp is' b := by
  cases h with
  | done => exact .inl rfl
  | kept h _ hr => exact .inr ⟨_, _, h, hr⟩
  | skipped h _ hr => exact .inr ⟨_, _, h, hr⟩

/-! ### Samples -/

/-- An instruction of one byte without operands. -/
def oneByte (mnemonic : Mnemonic) (ip : ℕ) : Instruction where
  mnemonic := mnemonic
  ops := []
  opRegister _ := .none
  memoryBase := .none
  memoryIndex := .none
  memoryIndexScale := 1
  memoryDisplacement64 := 0
  memorySize := .other 0 0
  nearBranchTarget := 0
  movsdXmmCode := false
  len := 1
  nextIp := (ip + 1) % 2 ^ 64

/-- A decoder of `nop` and `ret`. -/
def nopRetDecoder : Decoder
  | 0x90 :: _, ip => some (oneByte .nop ip)
  | 0xc3 :: _, ip => some (oneByte .ret ip)
  | _, _ => none

theorem nopRetDecoder_eq_some {bs : List UInt8} {ip : ℕ} {i : Instruction}
    (h : nopRetDecoder bs ip = some i) :
    ∃ b rest mn, bs = b :: rest ∧ i = oneByte mn ip ∧
      ∀ rest', nopRetDecoder (b :: rest') ip = some i := by
  unfold nopRetDecoder at h
  split at h
  · exact ⟨_, _, .nop, rfl, (Option.some.inj h).symm, fun _ => h⟩
  · exact ⟨_, _, .ret, rfl, (Option.some.inj h).symm, fun _ => h⟩
  · cases h

theorem nopRetDecoder_sound : nopRetDecoder.Sound where
  len h := by
    obtain ⟨b, rest, mn, rfl, rfl, -⟩ := nopRetDecoder_eq_some h
    exact ⟨Nat.one_pos, Nat.succ_le_succ (Nat.zero_le _)⟩
  nextIp h := by
    obtain ⟨b, rest, mn, rfl, rfl, -⟩ := nopRetDecoder_eq_some h
    rfl
  take {bs bs' ip i} h hlen htake := by
    obtain ⟨b, rest, mn, rfl, rfl, hany⟩ := nopRetDecoder_eq_some h
    cases bs' with
    | nil => exact absurd hlen (Nat.not_succ_le_zero 0)
    | cons b' rest' =>
      obtain ⟨rfl, -⟩ := List.cons.inj (show b' :: rest'.take 0 = b :: rest.take 0 from htake)
      exact hany rest'

/-- The address of the instruction after the one fetched. -/
def StepFetch.nextIp? : StepFetch → Option ℕ
  | .insn i => some i.nextIp
  | _ => none

/-- The number of bytes of a block. -/
def BlockKind.bytesLen? : BlockKind → Option ℕ
  | .pure _ _ n _ => some n
  | .notPure => none

theorem BlockKind.eq_pure {k : BlockKind} {n : ℕ} (h : k.bytesLen? = some n) :
    ∃ insns endRip term, k = .pure insns endRip n term := by
  cases k with
  | pure insns endRip b term =>
    obtain rfl := Option.some.inj h
    exact ⟨insns, endRip, term, rfl⟩
  | notPure => cases h

/-- Two `nop` and a `ret` at 0x20000, in a page with the given protection. -/
def nopPage (protect : ℕ) : GuestMemory :=
  GuestMemory.runAll .fourK (.new .roomy)
    [.virtualAlloc 0x20000 0x1000 (memReserve + memCommit) protect,
      .write 0x20000 [0x90, 0x90, 0xc3]]

/-- Whether every instruction from `start` on may be executed and none is a stop. -/
def flowRuns (m : GuestMemory) (hooks : Option HookWindow) (flow : List (ℕ × Instruction)) : Bool :=
  flow.all fun p => !hooks.any (·.shouldHostStop p.1) &&
    (List.range p.2.len).all fun i => m.pages.table.grants .execute ((p.1 + i) / 0x1000)

theorem flowRuns_iff {m : GuestMemory} {hooks : Option HookWindow}
    {flow : List (ℕ × Instruction)} :
    flowRuns m hooks flow = true ↔
      ∀ p ∈ flow, hooks.any (·.shouldHostStop p.1) = false ∧ m.Granted .execute p.1 p.2.len := by
  simp only [flowRuns, List.all_eq_true, Bool.and_eq_true, Bool.not_eq_true', List.mem_range]
  refine forall₂_congr fun p _ => and_congr_right fun _ => ?_
  constructor
  · intro h x h1 h2
    have := h (x - p.1) (by omega)
    rwa [Nat.add_sub_of_le h1] at this
  · exact fun h i hi => h _ (Nat.le_add_right _ _) (by omega)

theorem reachable_nopPage {protect : ℕ}
    (h : GuestMemory.allReturn .fourK (.new .roomy)
      [.virtualAlloc 0x20000 0x1000 (memReserve + memCommit) protect,
        .write 0x20000 [0x90, 0x90, 0xc3]] = true) :
    GuestMemory.Reachable .fourK GuestMemory.AnyCall (nopPage protect) :=
  (GuestMemory.reachable_new _).runAll _ (GuestMemory.allMeet_anyCall _ _) h

/-- Code that may be executed, without stops. -/
theorem blockMatches_nop : ∃ insns endRip term,
    decodePureGprBlock nopRetDecoder ((nopPage Protect.pageExecuteReadwrite).jitRead .fourK) none
      0x20000 = .pure insns endRip 3 term ∧
    BlockMatches nopRetDecoder .fourK (nopPage Protect.pageExecuteReadwrite) none 0x20000 insns 3 := by
  obtain ⟨insns, endRip, term, h⟩ := BlockKind.eq_pure (n := 3)
    (k := decodePureGprBlock nopRetDecoder
      ((nopPage Protect.pageExecuteReadwrite).jitRead .fourK) none 0x20000) (by decide +kernel)
  have hm := @reachable_nopPage Protect.pageExecuteReadwrite (by decide +kernel)
  refine ⟨insns, endRip, term, h, (blockMatches_iff nopRetDecoder_sound hm h).mpr ?_⟩
  exact flowRuns_iff.mp (by decide +kernel)

/-- **A block of code that may not be executed, and a block with a stop inside.** -/
theorem not_blockMatches_samples :
    (∃ insns endRip term, decodePureGprBlock nopRetDecoder
        ((nopPage Protect.pageReadwrite).jitRead .fourK) none 0x20000 = .pure insns endRip 3 term ∧
      ¬ BlockMatches nopRetDecoder .fourK (nopPage Protect.pageReadwrite) none 0x20000 insns 3) ∧
    ∃ insns endRip term, decodePureGprBlock nopRetDecoder
        ((nopPage Protect.pageExecuteReadwrite).jitRead .fourK) (some ⟨0x20001, 0x20001, []⟩)
        0x20000 = .pure insns endRip 3 term ∧
      ¬ BlockMatches nopRetDecoder .fourK (nopPage Protect.pageExecuteReadwrite)
        (some ⟨0x20001, 0x20001, []⟩) 0x20000 insns 3 := by
  constructor
  · obtain ⟨insns, endRip, term, h⟩ := BlockKind.eq_pure (n := 3)
      (k := decodePureGprBlock nopRetDecoder
        ((nopPage Protect.pageReadwrite).jitRead .fourK) none 0x20000) (by decide +kernel)
    refine ⟨insns, endRip, term, h, fun hb => ?_⟩
    have := hb.executable 0x20000 le_rfl (by omega)
    revert this
    decide +kernel
  · obtain ⟨insns, endRip, term, h⟩ := BlockKind.eq_pure (n := 3)
      (k := decodePureGprBlock nopRetDecoder ((nopPage Protect.pageExecuteReadwrite).jitRead .fourK)
        (some ⟨0x20001, 0x20001, []⟩) 0x20000) (by decide +kernel)
    refine ⟨insns, endRip, term, h, fun hb => ?_⟩
    rcases hb.fetches.head with he | ⟨i, is, hi, hrest⟩
    · exact absurd he (by decide)
    · have hnext : (stepFetch nopRetDecoder .fourK (nopPage Protect.pageExecuteReadwrite)
          (some ⟨0x20001, 0x20001, []⟩) 0x20000).nextIp? = some 0x20001 := by decide +kernel
      rw [hi] at hnext
      rw [Option.some.inj hnext] at hrest
      rcases hrest.head with he | ⟨j, js, hj, -⟩
      · exact absurd he (by decide)
      · have hstop : stepFetch nopRetDecoder .fourK (nopPage Protect.pageExecuteReadwrite)
            (some ⟨0x20001, 0x20001, []⟩) 0x20001 = .hostStop := rfl
        exact StepFetch.noConfusion (hstop.symm.trans hj)

end Wie
