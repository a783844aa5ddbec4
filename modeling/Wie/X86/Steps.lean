import Wie.X86.Machine

/-!
# Single instructions

What a run does in one instruction, or in the pair at the end of a loop.

## Main definitions

* `X86.Sets` — one register is set

## Main results

* `X86.reaches_mov`, `X86.reaches_movzx`, `X86.reaches_inc`, `X86.reaches_zero` — a register is set
* `X86.reaches_dec_jnz` — the end of a counted loop
* `X86.reaches_stos` — STOS
* `X86.reaches_pop` — POP
-/

namespace Wie

namespace X86

variable {code : List UInt8} {base k n : ℕ} {s : State} {w : Width} {r : Fin 16}

/-! ### Registers -/

namespace State

theorem reg_congr {s t : State} (h : t.gpr r = s.gpr r) (w : Width) : t.reg w r = s.reg w r := by
  rw [reg, reg, h]

/-- The lowest byte, once it is merged in. -/
theorem toNat_merge_byte (old : BitVec 64) (v : ℕ) : (merge .byte old v).toNat % 256 = v % 256 := by
  have hlt := old.isLt
  change (BitVec.ofNat 64 (old.toNat - old.toNat % 256 + v % 256)).toNat % 256 = _
  rw [BitVec.toNat_ofNat]
  omega

/-- The address of an operand without a displacement. -/
theorem address_index (s : State) (b i : Fin 16)
    (h : (s.gpr b).toNat + (s.gpr i).toNat < 2 ^ 64) :
    s.address ⟨b, some i, 0⟩ = (s.gpr b).toNat + (s.gpr i).toNat := by
  change (((s.gpr b).toNat + (s.gpr i).toNat + 0 : ℤ) % 2 ^ 64).toNat = _
  omega

theorem address_disp (s : State) (b : Fin 16) {d : ℕ} (h : (s.gpr b).toNat + d < 2 ^ 64) :
    s.address ⟨b, none, d⟩ = (s.gpr b).toNat + d := by
  change (((s.gpr b).toNat + 0 + d : ℤ) % 2 ^ 64).toNat = _
  omega

end State

/-! ### A register is set -/

/-- One register is set, and the machine goes on at an address. Flags may change. -/
structure Sets (s : State) (r : Fin 16) (v : BitVec 64) (a : ℕ) (t : State) : Prop where
  /-- The address. -/
  rip : t.rip = a
  /-- The register. -/
  self : t.gpr r = v
  /-- The other registers stay. -/
  other : ∀ i, i ≠ r → t.gpr i = s.gpr i
  /-- Memory stays. -/
  mem : t.mem = s.mem
  /-- The direction stays. -/
  df : t.flags.df = s.flags.df

theorem sets_setGpr (s : State) (r : Fin 16) (v : BitVec 64) (a : ℕ) {f : Flags}
    (hf : f.df = s.flags.df) : Sets s r v a (((s.goTo a).setFlags f).setGpr r v) :=
  ⟨rfl, State.setGpr_gpr_self .., fun _ hi => State.setGpr_gpr_of_ne _ hi v, rfl, hf⟩

theorem reaches_mov {src : Operand} {v : ℕ} (hrip : s.rip = base + k)
    (hd : decode (code.drop k) = some (.mov w (.reg r) src, n)) (hv : s.read w src = some v) :
    ∃ t, Reaches code base s t ∧ Sets s r (State.merge w (s.gpr r) v) (base + (k + n)) t := by
  refine ⟨_, .at hrip hd ?_ .refl, sets_setGpr s r _ _ rfl⟩
  rw [exec, hv, ← Nat.add_assoc]
  rfl

/-- From a register to another. -/
theorem reaches_mov_reg {i : Fin 16} (hrip : s.rip = base + k)
    (hd : decode (code.drop k) = some (.mov .qword (.reg r) (.reg i), n)) :
    ∃ t, Reaches code base s t ∧ Sets s r (s.gpr i) (base + (k + n)) t := by
  have h := reaches_mov hrip hd rfl
  rwa [State.reg_qword, State.merge_qword] at h

theorem reaches_movzx {src : Operand} {v : ℕ} (hrip : s.rip = base + k)
    (hd : decode (code.drop k) = some (.movzx r src, n)) (hv : s.read .byte src = some v) :
    ∃ t, Reaches code base s t ∧ Sets s r (State.merge .dword (s.gpr r) v) (base + (k + n)) t := by
  refine ⟨_, .at hrip hd ?_ .refl, sets_setGpr s r _ _ rfl⟩
  rw [exec, hv, ← Nat.add_assoc]
  rfl

/-- XOR of a register with itself. -/
theorem reaches_zero (hrip : s.rip = base + k)
    (hd : decode (code.drop k) = some (.alu .xor .dword (.reg r) (.reg r), n)) :
    ∃ t, Reaches code base s t ∧ Sets s r 0 (base + (k + n)) t := by
  refine ⟨_, .at hrip hd ?_ .refl, sets_setGpr s r _ _ (f := (AluOp.apply s.flags .dword
    (s.reg .dword r) (s.reg .dword r) .xor).2) rfl⟩
  have hxor : (AluOp.apply s.flags .dword (s.reg .dword r) (s.reg .dword r) .xor).1 = 0 :=
    Nat.xor_self _
  change some (State.setReg _ .dword r
    (AluOp.apply s.flags .dword (s.reg .dword r) (s.reg .dword r) .xor).1) = _
  rw [hxor, ← Nat.add_assoc]
  rfl

theorem range_qword : Width.range .qword = 2 ^ 64 := rfl

theorem merge_qword_eq (old : BitVec 64) (v : ℕ) :
    State.merge .qword old v = .ofNat 64 (v % 2 ^ 64) := rfl

/-- What INC writes. -/
theorem merge_inc (v : BitVec 64) :
    State.merge .qword v ((v.toNat + 1) % 2 ^ 64) = v + 1 := by
  refine BitVec.eq_of_toNat_eq ?_
  rw [merge_qword_eq, BitVec.toNat_ofNat, BitVec.toNat_add, Nat.mod_mod, Nat.mod_mod]
  rfl

/-- What DEC writes. -/
theorem merge_dec {v : BitVec 64} {c : ℕ} (h : v.toNat = c + 1) :
    State.merge .qword v c = v - 1 := by
  have hv := v.isLt
  refine BitVec.eq_of_toNat_eq ?_
  rw [merge_qword_eq, BitVec.toNat_ofNat, toNat_sub_one h]
  omega

theorem toNat_add_one {a : BitVec 64} {c : ℕ} (h : a.toNat = c) (hc : c + 1 < 2 ^ 64) :
    (a + 1).toNat = c + 1 := by
  have hone : (1 : BitVec 64).toNat = 1 := rfl
  rw [BitVec.toNat_add, h, hone]
  exact Nat.mod_eq_of_lt hc

theorem reaches_inc (hrip : s.rip = base + k)
    (hd : decode (code.drop k) = some (.inc .qword (.reg r), n)) :
    ∃ t, Reaches code base s t ∧ Sets s r (s.gpr r + 1) (base + (k + n)) t := by
  refine ⟨_, .at hrip hd ?_ .refl, sets_setGpr s r _ _
    (f := s.flags.ofResult .qword (((s.gpr r).toNat + 1) % 2 ^ 64) s.flags.cf) rfl⟩
  have hread : s.read .qword (.reg r) = some (s.gpr r).toNat := congrArg some (s.reg_qword r)
  rw [← merge_inc, ← Nat.add_assoc, exec, hread]
  rfl

/-- **The end of a counted loop**: a register is counted down, and unless it is zero then, there is
a jump. -/
theorem reaches_dec_jnz {n₁ n₂ c : ℕ} {rel : ℤ} (hrip : s.rip = base + k)
    (h₁ : decode (code.drop k) = some (.dec .qword (.reg r), n₁))
    (h₂ : decode (code.drop (k + n₁)) = some (.jcc .ne rel, n₂)) (hc : (s.gpr r).toNat = c + 1) :
    ∃ t, Reaches code base s t ∧ Sets s r (s.gpr r - 1) (if c ≠ 0 then
      jumpTarget (base + (k + n₁ + n₂)) rel else base + (k + n₁ + n₂)) t := by
  have hlt : c + 1 < 2 ^ 64 := hc ▸ (s.gpr r).isLt
  have hread : s.read .qword (.reg r) = some (c + 1) := by
    rw [← hc]
    exact congrArg some (s.reg_qword r)
  have hres : (c + 1 + 2 ^ 64 - 1) % 2 ^ 64 = c := by omega
  obtain ⟨f, hf⟩ : ∃ f, f = s.flags.ofResult .qword c s.flags.cf := ⟨_, rfl⟩
  have hz : Cond.holds f .ne = true ↔ c ≠ 0 := by
    rw [hf]
    change (!decide (c = 0)) = true ↔ _
    rw [Bool.not_eq_true', decide_eq_false_iff_not]
  have e₁ : exec (.dec .qword (.reg r)) (base + k + n₁) s =
      some (((s.goTo (base + k + n₁)).setFlags f).setGpr r (s.gpr r - 1)) := by
    rw [exec, hread, Option.bind_eq_bind, Option.bind_some, range_qword, hres, hf, ← merge_dec hc]
    rfl
  refine ⟨_, .at hrip h₁ e₁ (.at (Nat.add_assoc base k n₁) h₂ ?_ .refl),
    sets_setGpr s r _ _ (f := f) (by rw [hf]; rfl)⟩
  rw [exec]
  have hnext : base + (k + n₁) + n₂ = base + (k + n₁ + n₂) := Nat.add_assoc ..
  rw [hnext]
  exact congrArg (fun a => some (State.goTo _ a)) (if_congr hz rfl rfl)

/-! ### Nothing is set -/

theorem reaches_jmp {rel : ℤ} (hrip : s.rip = base + k)
    (hd : decode (code.drop k) = some (.jmp rel, n)) :
    Reaches code base s (s.goTo (jumpTarget (base + (k + n)) rel)) := by
  refine .at hrip hd ?_ .refl
  rw [exec, ← Nat.add_assoc]

theorem reaches_cld (hrip : s.rip = base + k) (hd : decode (code.drop k) = some (.cld, n)) :
    Reaches code base s
      ((s.goTo (base + (k + n))).setFlags { s.flags with df := false }) := by
  refine .at hrip hd ?_ .refl
  rw [exec, ← Nat.add_assoc]

/-! ### Memory -/

theorem reaches_push (hrip : s.rip = base + k) (hd : decode (code.drop k) = some (.push r, n))
    (h : s.mem.Rw (s.gpr 4 - 8).toNat 8) :
    Reaches code base s (((s.goTo (base + (k + n))).setGpr 4 (s.gpr 4 - 8)).setMem
      (s.mem.set (s.gpr 4 - 8).toNat 8 (s.gpr r).toNat)) := by
  refine .at hrip hd ?_ .refl
  rw [exec_push h, ← Nat.add_assoc]

/-- POP of what is on the stack. -/
theorem reaches_pop {v : BitVec 64} (hrip : s.rip = base + k)
    (hd : decode (code.drop k) = some (.pop r, n))
    (h : s.mem.loadLe (s.gpr 4).toNat 8 = some v.toNat) :
    Reaches code base s
      (((s.goTo (base + (k + n))).setGpr 4 (s.gpr 4 + 8)).setGpr r v) := by
  refine .at hrip hd ?_ .refl
  rw [exec_pop h, ← Nat.add_assoc, BitVec.ofNat_toNat, BitVec.setWidth_eq]

/-- STOS upwards. -/
theorem reaches_stos (hrip : s.rip = base + k) (hd : decode (code.drop k) = some (.stos w, n))
    (hdf : s.flags.df = false) (h : s.mem.Rw (s.gpr 7).toNat w.bytes) :
    Reaches code base s
      (((s.goTo (base + (k + n))).setGpr 7 (s.gpr 7 + .ofNat 64 w.bytes)).setMem
        (s.mem.set (s.gpr 7).toNat w.bytes (s.reg w 0))) := by
  refine .at hrip hd ?_ .refl
  rw [exec, h.storeLe, stride, hdf, ← Nat.add_assoc]
  rfl

/-! ### Tests -/

/-- The highest bit of a byte. -/
theorem holds_test_high {f : Flags} {a : ℕ} (ha : a < 256) :
    Cond.holds (AluOp.apply f .byte a 128 .test).2 .ne = true ↔ 128 ≤ a := by
  have hbit : ∀ a < 256, (a &&& 128 = 0 ↔ a < 128) := by decide +kernel
  change (!decide (a &&& 128 = 0)) = true ↔ _
  rw [Bool.not_eq_true', decide_eq_false_iff_not, hbit a ha, not_lt]

end X86

end Wie
