import Mathlib.Tactic.Common
import Wie.Lib.MemProg

/-!
# Faults of commands

A command that is denied an access ends with a fault. It can be tried again when the fault has left
the registers as they were, as far as that is asked, and the memory the same; then it is *precise*.

Precision is a matter of order. What only reads may come first, and what cannot fault may come last;
a command that changes registers and then faults is not precise, whatever it would have done after.

## Main definitions

* `Faulting` — a memory whose accesses can be denied
* `Cmd.Quiet` — commands that only read
* `Cmd.NoFault` — commands that do not fault
* `Cmd.PreciseAt`, `Cmd.Precise` — commands whose faults are precise
* `Cmd.Reads` — what a quiet command finds

## Main results

* `Cmd.Quiet.bind_precise`, `Cmd.Precise.bind_noFault` — the order of steps
* `Cmd.Quiet.preciseAt_bind_iff`, `Cmd.preciseAt_alter_bind_iff` — when a sequence is precise
-/

namespace Wie

/-- A memory whose accesses can be denied, and what a fault has to leave as it was. Memories that
are the same answer all reads alike, and reads and denied writes leave a memory the same. -/
structure Faulting (W ρ ε : Type) where
  /-- The memory. -/
  device : MemDevice W
  /-- The failures that are faults. -/
  IsFault : ε → Prop
  /-- The registers are kept, as far as they have to be. -/
  Kept : ρ → ρ → Prop
  /-- That is an equivalence. -/
  kept : Equivalence Kept
  /-- The memories in use. -/
  Ok : W → Prop
  /-- Two memories are the same. -/
  Same : W → W → Prop
  /-- That is an equivalence. -/
  refl : ∀ {w}, Ok w → Same w w
  /-- It goes both ways. -/
  symm : ∀ {w w'}, Ok w → Same w w' → Same w' w
  /-- It composes. -/
  trans : ∀ {w w' w''}, Same w w' → Same w' w'' → Same w w''
  /-- What is the same is in use. -/
  ok : ∀ {w w'}, Same w w' → Ok w → Ok w'
  /-- Reads. -/
  read : ∀ {w w' a n v}, Ok w → device.read w a n = some (v, w') → Same w w'
  /-- Reads of memories that are the same. -/
  read_congr : ∀ {w w₁ w' a n v}, Ok w → Same w w₁ → device.read w a n = some (v, w') →
    ∃ w'', device.read w₁ a n = some (v, w'')
  /-- Denied writes. -/
  write : ∀ {w w' a bytes}, Ok w → device.write w a bytes = some (false, w') → Same w w'

namespace Cmd

variable {ρ ε α β W : Type} {F : Faulting W ρ ε} {x : Cmd ρ ε α} {f : α → Cmd ρ ε β} {r r' : ρ}
  {w w' : W} {a : α}

/-! ### Kinds of commands -/

/-- The command finds `a`. -/
def Reads (F : Faulting W ρ ε) (x : Cmd ρ ε α) (r : ρ) (w : W) (a : α) : Prop :=
  ∃ w', x.run F.device r w = some ((.ok a, r), w')

/-- **The command only reads.** -/
structure Quiet (F : Faulting W ρ ε) (x : Cmd ρ ε α) : Prop where
  /-- It leaves everything as it was. -/
  still : ∀ {r w v r' w'}, F.Ok w → x.run F.device r w = some ((v, r'), w') →
    r' = r ∧ F.Same w w'
  /-- It finds the same in memories that are the same. -/
  congr : ∀ {r w w₁ a}, F.Ok w → F.Same w w₁ → Reads F x r w a → Reads F x r w₁ a

/-- The command ends with a fault, with registers `r'` and memory `w'`. -/
def Faults (F : Faulting W ρ ε) (x : Cmd ρ ε α) (r : ρ) (w : W) (r' : ρ) (w' : W) : Prop :=
  ∃ e, F.IsFault e ∧ x.run F.device r w = some ((.error e, r'), w')

/-- The command does not fault. -/
def NoFault (F : Faulting W ρ ε) (x : Cmd ρ ε α) : Prop := ∀ r w r' w', ¬Faults F x r w r' w'

/-- A fault leaves everything as it was. -/
def PreciseAt (F : Faulting W ρ ε) (x : Cmd ρ ε α) (r : ρ) (w : W) : Prop :=
  ∀ r' w', Faults F x r w r' w' → F.Kept r r' ∧ F.Same w w'

/-- **Faults are precise.** -/
def Precise (F : Faulting W ρ ε) (x : Cmd ρ ε α) : Prop := ∀ r w, F.Ok w → PreciseAt F x r w

/-! ### Sequences -/

theorem faults_bind_iff : Faults F (x >>= f) r w r' w' ↔ Faults F x r w r' w' ∨
    ∃ a r₁ w₁, x.run F.device r w = some ((.ok a, r₁), w₁) ∧ Faults F (f a) r₁ w₁ r' w' := by
  simp only [Faults, run_bind_eq_some]
  constructor
  · rintro ⟨e, he, ⟨e', ⟨⟩, hx⟩ | ⟨a, r₁, w₁, hx, hf⟩⟩
    · exact .inl ⟨e, he, hx⟩
    · exact .inr ⟨a, r₁, w₁, hx, e, he, hf⟩
  · rintro (⟨e, he, hx⟩ | ⟨a, r₁, w₁, hx, e, he, hf⟩)
    · exact ⟨e, he, .inl ⟨e, rfl, hx⟩⟩
    · exact ⟨e, he, .inr ⟨a, r₁, w₁, hx, hf⟩⟩

theorem Quiet.bind (hx : Quiet F x) (hf : ∀ a, Quiet F (f a)) : Quiet F (x >>= f) where
  still hw h := by
    rcases run_bind_eq_some.mp h with ⟨e, rfl, h'⟩ | ⟨a, r₁, w₁, h₁, h₂⟩
    · exact hx.still hw h'
    · obtain ⟨rfl, hs₁⟩ := hx.still hw h₁
      obtain ⟨rfl, hs₂⟩ := (hf a).still (F.ok hs₁ hw) h₂
      exact ⟨rfl, F.trans hs₁ hs₂⟩
  congr {r w w₂ b} hw hs h := by
    obtain ⟨w', h⟩ := h
    rcases run_bind_eq_some.mp h with ⟨e, ⟨⟩, -⟩ | ⟨a, r₁, w₁, h₁, h₂⟩
    obtain ⟨rfl, hs₁⟩ := hx.still hw h₁
    obtain ⟨w₃, h₃⟩ := hx.congr hw hs ⟨w₁, h₁⟩
    obtain ⟨-, hs₃⟩ := hx.still (F.ok hs hw) h₃
    have hback : F.Same w₁ w₃ := F.trans (F.symm hw hs₁) (F.trans hs hs₃)
    obtain ⟨w₄, h₄⟩ := (hf a).congr (F.ok hs₁ hw) hback ⟨w', h₂⟩
    exact ⟨w₄, run_bind_eq_some.mpr (.inr ⟨a, _, w₃, h₃, h₄⟩)⟩

theorem NoFault.bind (hx : NoFault F x) (hf : ∀ a, NoFault F (f a)) : NoFault F (x >>= f) := by
  intro r w r' w' h
  rcases faults_bind_iff.mp h with h | ⟨a, r₁, w₁, -, h⟩
  · exact hx _ _ _ _ h
  · exact hf a _ _ _ _ h

theorem Quiet.precise (hx : Quiet F x) : Precise F x := by
  rintro r w hw r' w' ⟨e, -, h⟩
  obtain ⟨rfl, hs⟩ := hx.still hw h
  exact ⟨F.kept.refl _, hs⟩

theorem NoFault.preciseAt (hx : NoFault F x) : PreciseAt F x r w :=
  fun _ _ h => absurd h (hx _ _ _ _)

theorem NoFault.precise (hx : NoFault F x) : Precise F x := fun _ _ _ => hx.preciseAt

/-- **What only reads may come first.** -/
theorem Quiet.bind_precise (hx : Quiet F x) (hf : ∀ a, Precise F (f a)) : Precise F (x >>= f) := by
  intro r w hw r' w' h
  rcases faults_bind_iff.mp h with h | ⟨a, r₁, w₁, h₁, h₂⟩
  · exact hx.precise r w hw r' w' h
  · obtain ⟨rfl, hs₁⟩ := hx.still hw h₁
    obtain ⟨hk, hs₂⟩ := hf a _ w₁ (F.ok hs₁ hw) r' w' h₂
    exact ⟨hk, F.trans hs₁ hs₂⟩

/-- **What cannot fault may come last.** -/
theorem Precise.bind_noFault (hx : Precise F x) (hf : ∀ a, NoFault F (f a)) :
    Precise F (x >>= f) := by
  intro r w hw r' w' h
  rcases faults_bind_iff.mp h with h | ⟨a, r₁, w₁, -, h₂⟩
  · exact hx r w hw r' w' h
  · exact absurd h₂ (hf a _ _ _ _)

/-- **When a sequence that first reads is precise.** The memory may have changed to one that is
the same before. -/
theorem Quiet.preciseAt_bind_iff (hx : Quiet F x) {w₀ : W} (hw : F.Ok w₀) (hs : F.Same w₀ w)
    {P : α → Prop} (hf : ∀ a w', F.Same w₀ w' → Reads F x r w₀ a →
      (PreciseAt F (f a) r w' ↔ P a)) :
    PreciseAt F (x >>= f) r w ↔ ∀ a, Reads F x r w₀ a → P a := by
  have hw₁ := F.ok hs hw
  constructor
  · intro h a ha
    obtain ⟨w₁, h₁⟩ := hx.congr hw hs ha
    obtain ⟨-, hs₁⟩ := hx.still hw₁ h₁
    refine (hf a w₁ (F.trans hs hs₁) ha).mp fun r' w' h₂ => ?_
    obtain ⟨hk, hs'⟩ := h r' w' (faults_bind_iff.mpr (.inr ⟨a, r, w₁, h₁, h₂⟩))
    exact ⟨hk, F.trans (F.symm hw₁ hs₁) hs'⟩
  · intro h r' w' hf'
    rcases faults_bind_iff.mp hf' with h' | ⟨a, r₁, w₁, h₁, h₂⟩
    · exact hx.precise r w hw₁ r' w' h'
    · obtain ⟨rfl, hs₁⟩ := hx.still hw₁ h₁
      have ha := hx.congr hw₁ (F.symm hw hs) ⟨w₁, h₁⟩
      obtain ⟨hk, hs₂⟩ := (hf a w₁ (F.trans hs hs₁) ha).mpr (h a ha) r' w' h₂
      exact ⟨hk, F.trans hs₁ hs₂⟩

theorem faults_alter_bind_iff {g : ρ → ρ} {f : Unit → Cmd ρ ε β} :
    Faults F (alter g >>= f) r w r' w' ↔ Faults F (f ()) (g r) w r' w' := Iff.rfl

theorem preciseAt_regs_bind_iff {f : ρ → Cmd ρ ε β} :
    PreciseAt F (regs >>= f) r w ↔ PreciseAt F (f r) r w := Iff.rfl

/-- **When a sequence that first changes registers is precise**: where the rest does not fault, or
nothing was changed. -/
theorem preciseAt_alter_bind_iff {g : ρ → ρ} {f : Unit → Cmd ρ ε β}
    (hf : PreciseAt F (f ()) (g r) w) : PreciseAt F (alter g >>= f) r w ↔
      ((∃ r' w', Faults F (f ()) (g r) w r' w') → F.Kept r (g r)) := by
  constructor
  · rintro h ⟨r', w', h'⟩
    exact F.kept.trans (h r' w' h').1 (F.kept.symm (hf r' w' h').1)
  · intro h r' w' h'
    obtain ⟨hk, hs⟩ := hf r' w' h'
    exact ⟨F.kept.trans (h ⟨r', w', h'⟩) hk, hs⟩

theorem PreciseAt.bind (hx : PreciseAt F x r w) (hf : ∀ a r₁ w₁,
    x.run F.device r w = some ((.ok a, r₁), w₁) → ∀ r' w', ¬Faults F (f a) r₁ w₁ r' w') :
    PreciseAt F (x >>= f) r w := by
  intro r' w' h
  rcases faults_bind_iff.mp h with h | ⟨a, r₁, w₁, h₁, h₂⟩
  · exact hx r' w' h
  · exact absurd h₂ (hf a r₁ w₁ h₁ r' w')

theorem NoFault.faults_bind_iff (hf : ∀ a, NoFault F (f a)) :
    Faults F (x >>= f) r w r' w' ↔ Faults F x r w r' w' := by
  rw [Cmd.faults_bind_iff]
  constructor
  · rintro (h | ⟨a, r₁, w₁, -, h⟩)
    · exact h
    · exact absurd h (hf a _ _ _ _)
  · exact .inl

/-- **When a sequence that first changes no memory is precise**: where the rest does not fault, or
the registers are kept. -/
theorem preciseAt_bind_iff (hw : F.Ok w) (hx : PreciseAt F x r w) (hf : ∀ a, Precise F (f a))
    (hs : ∀ a r₁ w₁, x.run F.device r w = some ((.ok a, r₁), w₁) → F.Same w w₁) :
    PreciseAt F (x >>= f) r w ↔ ∀ a r₁ w₁, x.run F.device r w = some ((.ok a, r₁), w₁) →
      (∃ r' w', Faults F (f a) r₁ w₁ r' w') → F.Kept r r₁ := by
  constructor
  · rintro h a r₁ w₁ h₁ ⟨r', w', h₂⟩
    obtain ⟨hk, -⟩ := h r' w' (faults_bind_iff.mpr (.inr ⟨a, r₁, w₁, h₁, h₂⟩))
    exact F.kept.trans hk (F.kept.symm (hf a r₁ w₁ (F.ok (hs a r₁ w₁ h₁) hw) r' w' h₂).1)
  · intro h r' w' h'
    rcases faults_bind_iff.mp h' with h' | ⟨a, r₁, w₁, h₁, h₂⟩
    · exact hx r' w' h'
    · obtain ⟨hk, hs'⟩ := hf a r₁ w₁ (F.ok (hs a r₁ w₁ h₁) hw) r' w' h₂
      exact ⟨F.kept.trans (h a r₁ w₁ h₁ ⟨r', w', h₂⟩) hk, F.trans (hs a r₁ w₁ h₁) hs'⟩

/-- A branch on the registers after they are changed. -/
theorem preciseAt_alter_ite_iff {g : ρ → ρ} {c : ρ → Prop} [DecidablePred c] {x y : Cmd ρ ε β} :
    PreciseAt F (do
      alter g
      let r' ← regs
      if c r' then x else y) r w ↔
    PreciseAt F (alter g >>= fun _ => if c (g r) then x else y) r w := Iff.rfl

/-! ### Single commands -/

theorem quiet_pure (a : α) : Quiet F (pure a : Cmd ρ ε α) where
  still hw h := by
    cases h
    exact ⟨rfl, F.refl hw⟩
  congr {r w w₁ b} hw hs h := by
    obtain ⟨w', h⟩ := h
    cases h
    exact ⟨w₁, rfl⟩

theorem quiet_ofExcept (v : Except ε α) : Quiet F (ofExcept v : Cmd ρ ε α) where
  still hw h := by
    cases h
    exact ⟨rfl, F.refl hw⟩
  congr {r w w₁ b} hw hs h := by
    obtain ⟨w', h⟩ := h
    obtain rfl : v = .ok b := by
      cases h
      rfl
    exact ⟨w₁, rfl⟩

theorem quiet_fail (e : ε) : Quiet F (fail e : Cmd ρ ε α) := quiet_ofExcept _

theorem quiet_regs : Quiet F (regs : Cmd ρ ε ρ) where
  still hw h := by
    cases h
    exact ⟨rfl, F.refl hw⟩
  congr {r w w₁ b} hw hs h := by
    obtain ⟨w', h⟩ := h
    cases h
    exact ⟨w₁, rfl⟩

theorem quiet_load (a n : ℕ) (e : ε) : Quiet F (load a n e : Cmd ρ ε (List UInt8)) where
  still hw h := by
    obtain ⟨⟨v, w₁⟩, hr, h⟩ := Option.bind_eq_some_iff.mp h
    cases h
    exact ⟨rfl, F.read hw hr⟩
  congr {r w w₁ b} hw hs h := by
    obtain ⟨w', h⟩ := h
    obtain ⟨⟨v, w₂⟩, hr, h⟩ := Option.bind_eq_some_iff.mp h
    obtain ⟨w₃, hr₃⟩ := F.read_congr hw hs hr
    cases v with
    | none => cases h
    | some v =>
      cases h
      exact ⟨w₃, Option.bind_eq_some_iff.mpr ⟨_, hr₃, rfl⟩⟩

theorem noFault_pure (a : α) : NoFault F (pure a : Cmd ρ ε α) := by
  rintro r w r' w' ⟨e, -, h⟩
  cases h

theorem noFault_alter (g : ρ → ρ) : NoFault F (alter g : Cmd ρ ε Unit) := by
  rintro r w r' w' ⟨e, -, h⟩
  cases h

theorem noFault_regs : NoFault F (regs : Cmd ρ ε ρ) := by
  rintro r w r' w' ⟨e, -, h⟩
  cases h

theorem noFault_tryFetchAdd (a n v : ℕ) :
    NoFault F (tryFetchAdd a n v : Cmd ρ ε (Option ℕ)) := by
  rintro r w r' w' ⟨e, -, h⟩
  obtain ⟨⟨old, w₁⟩, -, h⟩ := Option.bind_eq_some_iff.mp h
  cases h

theorem noFault_ofExcept {v : Except ε α} (hv : ∀ e, v = .error e → ¬F.IsFault e) :
    NoFault F (ofExcept v : Cmd ρ ε α) := by
  rintro r w r' w' ⟨e, he, h⟩
  cases h
  exact hv e rfl he

theorem noFault_fail {e : ε} (he : ¬F.IsFault e) : NoFault F (fail e : Cmd ρ ε α) :=
  noFault_ofExcept fun e' h => by
    cases h
    exact he

/-- **A store is precise**: when it is denied, nothing has happened. -/
theorem precise_store (a : ℕ) (bytes : List UInt8) (e : ε) :
    Precise F (store a bytes e : Cmd ρ ε Unit) := by
  rintro r w hw r' w' ⟨e', he, h⟩
  obtain ⟨⟨ok, w₁⟩, hd, h⟩ := Option.bind_eq_some_iff.mp h
  cases ok with
  | true => cases h
  | false =>
    cases h
    exact ⟨F.kept.refl _, F.write hw hd⟩

theorem reads_load_iff {a n : ℕ} {e : ε} {bytes : List UInt8} :
    Reads F (load a n e : Cmd ρ ε (List UInt8)) r w bytes ↔
      ∃ w', F.device.read w a n = some (some bytes, w') := by
  constructor
  · rintro ⟨w', h⟩
    obtain ⟨⟨v, w₁⟩, hd, h⟩ := Option.bind_eq_some_iff.mp h
    cases v with
    | none => cases h
    | some v =>
      cases h
      exact ⟨w₁, hd⟩
  · rintro ⟨w₁, hd⟩
    exact ⟨w₁, Option.bind_eq_some_iff.mpr ⟨_, hd, rfl⟩⟩

/-- When a load faults. -/
theorem faults_load_iff {a n : ℕ} {e : ε} (he : F.IsFault e) :
    (∃ r' w', Faults F (load a n e : Cmd ρ ε (List UInt8)) r w r' w') ↔
      ∃ w', F.device.read w a n = some (none, w') := by
  constructor
  · rintro ⟨r', w', e', -, h⟩
    obtain ⟨⟨v, w₁⟩, hd, h⟩ := Option.bind_eq_some_iff.mp h
    cases v with
    | none => exact ⟨w₁, hd⟩
    | some v => cases h
  · rintro ⟨w₁, hd⟩
    exact ⟨r, w₁, e, he, Option.bind_eq_some_iff.mpr ⟨_, hd, rfl⟩⟩

/-- When a store faults. -/
theorem faults_store_iff {a : ℕ} {bytes : List UInt8} {e : ε} (he : F.IsFault e) :
    (∃ r' w', Faults F (store a bytes e : Cmd ρ ε Unit) r w r' w') ↔
      ∃ w', F.device.write w a bytes = some (false, w') := by
  constructor
  · rintro ⟨r', w', e', -, h⟩
    obtain ⟨⟨ok, w₁⟩, hd, h⟩ := Option.bind_eq_some_iff.mp h
    cases ok with
    | true => cases h
    | false => exact ⟨w₁, hd⟩
  · rintro ⟨w₁, hd⟩
    exact ⟨r, w₁, e, he, Option.bind_eq_some_iff.mpr ⟨_, hd, rfl⟩⟩

end Cmd

end Wie
