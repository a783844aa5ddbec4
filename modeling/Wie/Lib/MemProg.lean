import Mathlib.Data.Nat.Notation

/-!
# Programs that work on a memory

A program is what it asks of its memory and how it goes on with each answer. Nothing is said about
the memory itself: the same program can run alone on a memory of its own, or with others that take
their turns between its questions.

A command also has registers and may fail, and what it did before it failed stays done.

## Main definitions

* `MemProg` — programs, with `MemProg.run` for one that runs alone
* `Cmd` — commands, with `Cmd.run`

## Main results

* `MemProg.run_bind`, `Cmd.run_bind_eq_some` — one after the other
-/

namespace Wie

/-! ### Programs -/

/-- A program that works on a memory. -/
inductive MemProg (α : Type) : Type
  /-- It is done. -/
  | done (a : α)
  /-- It reads `n` bytes; the answer may be that it must not. -/
  | read (a n : ℕ) (next : Option (List UInt8) → MemProg α)
  /-- It writes bytes; the answer says whether it could. -/
  | write (a : ℕ) (bytes : List UInt8) (next : Bool → MemProg α)
  /-- It adds to a number of `n` bytes in one step and has the old one, where that is offered. -/
  | fetchAdd (a n v : ℕ) (next : Option ℕ → MemProg α)
  /-- It writes bytes in one go; the answer says whether that is offered. -/
  | fill (a : ℕ) (bytes : List UInt8) (next : Bool → MemProg α)
  /-- It copies `n` bytes in one go; the answer says whether that is offered. -/
  | copy (src dst n : ℕ) (next : Bool → MemProg α)

/-- A memory. An access can end the process, and then there is no answer. Whether something is
offered is the memory's own affair. -/
structure MemDevice (W : Type) where
  /-- Read. -/
  read : W → (a n : ℕ) → Option (Option (List UInt8) × W)
  /-- Write. -/
  write : W → (a : ℕ) → List UInt8 → Option (Bool × W)
  /-- Add in one step. -/
  fetchAdd : W → (a n v : ℕ) → Option (Option ℕ × W)
  /-- Write in one go. -/
  fill : W → (a : ℕ) → List UInt8 → Option (Bool × W)
  /-- Copy in one go. -/
  copy : W → (src dst n : ℕ) → Option (Bool × W)

namespace MemProg

variable {α β W : Type} {p : MemDevice W}

/-- One program after another. -/
def bind (x : MemProg α) (f : α → MemProg β) : MemProg β :=
  match x with
  | done a => f a
  | read a n next => read a n fun v => (next v).bind f
  | write a bytes next => write a bytes fun v => (next v).bind f
  | fetchAdd a n u next => fetchAdd a n u fun v => (next v).bind f
  | fill a bytes next => fill a bytes fun v => (next v).bind f
  | copy src dst n next => copy src dst n fun v => (next v).bind f

/-- The first thing that the program does is to read. -/
def Loads (a n : ℕ) : MemProg α → Prop
  | read b k _ => b = a ∧ k = n
  | _ => False

/-- The program runs alone. -/
def run (p : MemDevice W) : MemProg α → W → Option (α × W)
  | done a, w => some (a, w)
  | read a n next, w => (p.read w a n).bind fun v => (next v.1).run p v.2
  | write a bytes next, w => (p.write w a bytes).bind fun v => (next v.1).run p v.2
  | fetchAdd a n u next, w => (p.fetchAdd w a n u).bind fun v => (next v.1).run p v.2
  | fill a bytes next, w => (p.fill w a bytes).bind fun v => (next v.1).run p v.2
  | copy src dst n next, w => (p.copy w src dst n).bind fun v => (next v.1).run p v.2

theorem run_bind (x : MemProg α) (f : α → MemProg β) (w : W) :
    (x.bind f).run p w = (x.run p w).bind fun v => (f v.1).run p v.2 := by
  induction x generalizing w with
  | done a => rfl
  | read a n next ih =>
    show (p.read w a n).bind _ = ((p.read w a n).bind _).bind _
    rw [Option.bind_assoc]
    exact congrArg _ (funext fun v => ih v.1 v.2)
  | write a bytes next ih =>
    show (p.write w a bytes).bind _ = ((p.write w a bytes).bind _).bind _
    rw [Option.bind_assoc]
    exact congrArg _ (funext fun v => ih v.1 v.2)
  | fetchAdd a n u next ih =>
    show (p.fetchAdd w a n u).bind _ = ((p.fetchAdd w a n u).bind _).bind _
    rw [Option.bind_assoc]
    exact congrArg _ (funext fun v => ih v.1 v.2)
  | fill a bytes next ih =>
    show (p.fill w a bytes).bind _ = ((p.fill w a bytes).bind _).bind _
    rw [Option.bind_assoc]
    exact congrArg _ (funext fun v => ih v.1 v.2)
  | copy src dst n next ih =>
    show (p.copy w src dst n).bind _ = ((p.copy w src dst n).bind _).bind _
    rw [Option.bind_assoc]
    exact congrArg _ (funext fun v => ih v.1 v.2)

end MemProg

/-! ### Commands -/

/-- A command on registers `ρ`, which may fail with an `ε`. -/
def Cmd (ρ ε α : Type) : Type := ρ → MemProg (Except ε α × ρ)

namespace Cmd

variable {ρ ε α β W : Type} {p : MemDevice W}

/-- How a sequence goes on after its first command. -/
def andThen (f : α → Cmd ρ ε β) : Except ε α × ρ → MemProg (Except ε β × ρ)
  | (.ok a, r) => f a r
  | (.error e, r) => .done (.error e, r)

instance : Monad (Cmd ρ ε) where
  pure a := fun r => .done (.ok a, r)
  bind x f := fun r => (x r).bind (andThen f)

/-- A result or a failure. -/
def ofExcept (x : Except ε α) : Cmd ρ ε α := fun r => .done (x, r)

/-- Fail. -/
def fail (e : ε) : Cmd ρ ε α := ofExcept (.error e)

/-- The registers. -/
def regs : Cmd ρ ε ρ := fun r => .done (.ok r, r)

/-- Change the registers. -/
def alter (f : ρ → ρ) : Cmd ρ ε Unit := fun r => .done (.ok (), f r)

/-- Read memory, with a failure where that is denied. -/
def load (a n : ℕ) (e : ε) : Cmd ρ ε (List UInt8) := fun r =>
  .read a n fun v => .done (v.elim (.error e) .ok, r)

/-- Write memory, with a failure where that is denied. -/
def store (a : ℕ) (bytes : List UInt8) (e : ε) : Cmd ρ ε Unit := fun r =>
  .write a bytes fun ok => .done (if ok then .ok () else .error e, r)

/-- Read memory, where that is not denied. -/
def tryLoad (a n : ℕ) : Cmd ρ ε (Option (List UInt8)) := fun r =>
  .read a n fun v => .done (.ok v, r)

/-- Write memory; the result is whether that was not denied. -/
def tryStore (a : ℕ) (bytes : List UInt8) : Cmd ρ ε Bool := fun r =>
  .write a bytes fun ok => .done (.ok ok, r)

/-- Add in one step, where that is offered. -/
def tryFetchAdd (a n v : ℕ) : Cmd ρ ε (Option ℕ) := fun r =>
  .fetchAdd a n v fun old => .done (.ok old, r)

/-- Write bytes in one go, where that is offered. -/
def tryFill (a : ℕ) (bytes : List UInt8) : Cmd ρ ε Bool := fun r =>
  .fill a bytes fun ok => .done (.ok ok, r)

/-- Copy bytes in one go, where that is offered. -/
def tryCopy (src dst n : ℕ) : Cmd ρ ε Bool := fun r =>
  .copy src dst n fun ok => .done (.ok ok, r)

/-- The command runs alone. -/
def run (p : MemDevice W) (x : Cmd ρ ε α) (r : ρ) (w : W) : Option ((Except ε α × ρ) × W) :=
  (x r).run p w

theorem pure_apply (a : α) (r : ρ) : (pure a : Cmd ρ ε α) r = .done (.ok a, r) := rfl

theorem bind_apply (x : Cmd ρ ε α) (f : α → Cmd ρ ε β) (r : ρ) :
    (x >>= f) r = (x r).bind (andThen f) := rfl

/-- **How a sequence ends**: with the failure of the first, or where the second ends. -/
theorem run_bind_eq_some {x : Cmd ρ ε α} {f : α → Cmd ρ ε β} {r r' : ρ} {w w' : W}
    {v : Except ε β} : (x >>= f).run p r w = some ((v, r'), w') ↔
    (∃ e, v = .error e ∧ x.run p r w = some ((.error e, r'), w')) ∨
      ∃ a r₁ w₁, x.run p r w = some ((.ok a, r₁), w₁) ∧
        (f a).run p r₁ w₁ = some ((v, r'), w') := by
  rw [run, bind_apply, MemProg.run_bind, Option.bind_eq_some_iff]
  constructor
  · rintro ⟨⟨⟨e | a, r₁⟩, w₁⟩, hx, hf⟩
    · cases hf
      exact .inl ⟨e, rfl, hx⟩
    · exact .inr ⟨a, r₁, w₁, hx, hf⟩
  · rintro (⟨e, rfl, hx⟩ | ⟨a, r₁, w₁, hx, hf⟩)
    · exact ⟨_, hx, rfl⟩
    · exact ⟨_, hx, hf⟩

/-- A sequence whose first command has a result. -/
theorem run_bind_of_run {x : Cmd ρ ε α} {f : α → Cmd ρ ε β} {r r₁ : ρ} {w w₁ : W} {a : α}
    (hx : x.run p r w = some ((.ok a, r₁), w₁)) : (x >>= f).run p r w = (f a).run p r₁ w₁ := by
  rw [run, bind_apply, MemProg.run_bind]
  rw [run] at hx
  rw [hx]
  rfl

end Cmd

end Wie
