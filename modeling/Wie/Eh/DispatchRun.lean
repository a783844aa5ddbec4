import Wie.Lib.Reach
import Wie.Eh.Dispatch

/-!
# Exceptions in a process

Guest threads throw, run the steps they are given and come back to the dispatcher, in any order. A
step may itself throw, and the exception is caught inside it before it comes back; the dispatcher's
calls are atomic. What the guest does between the calls is arbitrary, so that every call is made
with an arbitrary engine.

The state has the record of the dispatcher, and ghosts: the plans made so far, the steps that ran,
the plan that wrote the record, and the steps each thread is in.

## Main definitions

* `SehSys`, `SehEvent`, `SehSys.Step` — the system
* `SehSys.Right` — plans are run in order and completely, and every return finds its record
* `SehSys.Alone` — a throw happens while no plan is in progress

## Main results

* `SehSys.right_of_alone` — such runs are right
* `SehSys.not_right_samples` — a throw in an action, and a throw on another thread
* `SehSys.not_right_of_overtaken` — a plan that was overtaken never comes back right
-/

namespace Wie

namespace SehStep

/-- The step is an action. -/
def isAction : SehStep → Bool
  | action .. => true
  | _ => false

/-- The step is a catch funclet. -/
def isCatch : SehStep → Bool
  | msvcCatch .. => true
  | _ => false

/-- The step is a landing pad. -/
def isJump : SehStep → Bool
  | jump .. => true
  | _ => false

/-- The record while a step runs. A landing pad that is the last step does not come back. -/
def record (h : SehStep) (rest : List SehStep) : Option SehPending :=
  if h.isJump ∧ rest = [] then none else some ⟨rest, h.isCatch, h.isJump⟩

end SehStep

/-! ### What the dispatcher leaves in the record -/

section

variable {α β : Type} {size : ByteMap → ℕ → BitVec 64 → Option ℕ}

/-- Called with the record `p`, a call that does not fail leaves the record `q`. -/
def Dispatch.Leaves (p : Option SehPending) (x : Dispatch α) (q : Option SehPending) : Prop :=
  ∀ d a d', d.pending = p → x d = (.ok a, d') → d'.pending = q

variable {p q r : Option SehPending}

theorem Dispatch.bind_ok {x : Dispatch α} {f : α → Dispatch β} {d d' : DispatchState} {b : β}
    (h : (x >>= f) d = (.ok b, d')) : ∃ a e, x d = (.ok a, e) ∧ f a e = (.ok b, d') := by
  have hb : (x >>= f) d = ExceptT.bindCont f (x d).1 (x d).2 := rfl
  rw [hb] at h
  rcases hx : x d with ⟨_ | a, e⟩
  · rw [hx] at h
    cases h
  · rw [hx] at h
    exact ⟨a, e, rfl, h⟩

namespace Dispatch.Leaves

theorem bind {x : Dispatch α} {f : α → Dispatch β} (hx : Leaves p x q)
    (hf : ∀ a, Leaves q (f a) r) : Leaves p (x >>= f) r := by
  intro d b d' hp h
  obtain ⟨a, e, h1, h2⟩ := bind_ok h
  exact hf a e b d' (hx d a e hp h1) h2

/-- The state is read first. -/
theorem get_bind {f : DispatchState → Dispatch β} (hf : ∀ d, d.pending = p → Leaves p (f d) q) :
    Leaves p (get >>= f) q := fun d b d' hp h => hf d hp d b d' hp h

theorem ret (a : α) : Leaves p (pure a : Dispatch α) p := by
  intro d b d' hp h
  obtain ⟨-, rfl⟩ := Prod.mk.inj h
  exact hp

theorem fail (e : SehError) : Leaves p (throw e : Dispatch α) q := by
  intro d a d' _ h
  cases (Prod.mk.inj h).1

theorem update {f : DispatchState → DispatchState} (hf : ∀ d, d.pending = p → (f d).pending = q) :
    Leaves p (modify f : Dispatch Unit) q := by
  intro d a d' hp h
  obtain ⟨-, rfl⟩ := Prod.mk.inj h
  exact hf d hp

theorem modifyCtx (f : RegFile → RegFile) : Leaves p (modifyCtx f) p := update fun _ h => h

theorem setPending : Leaves p (setPending q) q := update fun _ _ => rfl

theorem memRead (e : SehError) (a : BitVec 64) (n : ℕ) : Leaves p (memRead e a n) p := by
  refine get_bind fun d _ => ?_
  cases d.engine.mem.read a.toNat n with
  | none => exact fail e
  | some bs => exact ret bs

theorem memWrite (e : SehError) (a : BitVec 64) (bs : List UInt8) : Leaves p (memWrite e a bs) p := by
  refine get_bind fun d _ => ?_
  cases d.engine.memWrite a bs with
  | none => exact fail e
  | some engine => exact update fun _ h => h

theorem setupGuestCall (target establisher : BitVec 64) :
    Leaves p (setupGuestCall target establisher) p :=
  get_bind fun _ _ => .bind (memWrite _ _ _) fun _ => .bind (modifyCtx _) fun _ =>
    .bind (modifyCtx _) fun _ => modifyCtx _

theorem placeMsvcCatchObject (establisher : BitVec 64) (imageBase : ℕ) (c : MsvcCatch)
    (obj ti : BitVec 64) : Leaves p (placeMsvcCatchObject size establisher imageBase c obj ti) p := by
  rw [Wie.placeMsvcCatchObject]
  cases catchObjectAddress establisher c with
  | none => exact ret ()
  | some slot =>
    dsimp only
    split
    · exact memWrite _ _ _
    · refine get_bind fun d _ => ?_
      split
      · exact .bind (memRead _ _ _) fun _ => memWrite _ _ _
      · exact memWrite _ _ _

/-- **What a step leaves in the record.** -/
theorem runStep (h : SehStep) (rest : List SehStep) :
    Leaves (some ⟨rest, false, false⟩) (runStep size rest h) (h.record rest) := by
  cases h with
  | action target establisher => exact .bind (setupGuestCall _ _) fun _ => ret _
  | msvcCatch handler establisher frameRsp gpr xmm c obj imageBase throwInfo =>
    have hend : ∀ _ : Unit, Leaves (some ⟨rest, false, false⟩) (do
        markCatch
        Wie.setupGuestCall handler establisher
        return (⟨handler, obj⟩ : WinApiHandlerResult)) (some ⟨rest, true, false⟩) := fun _ =>
      .bind (update fun d h => by rw [h]; rfl) fun _ => .bind (setupGuestCall _ _) fun _ => ret _
    refine .bind (modifyCtx _) fun _ => .bind (modifyCtx _) fun _ => ?_
    show Leaves _ (if obj = 0 then _ else _) _
    split
    · exact hend ()
    · exact .bind (placeMsvcCatchObject _ _ _ _ _) hend
  | jump rip rsp gpr xmm rax rdx =>
    have hpass : ∀ p, Leaves p (passException rax) p := fun p => by
      cases rax with
      | none => exact ret ()
      | some exc => exact .bind (update fun _ h => h) fun _ => modifyCtx _
    have hswitch : ∀ p, Leaves p (passSwitch rdx) p := fun p => by
      cases rdx with
      | none => exact ret ()
      | some sv => exact update fun _ h => h
    have hmark : Leaves (some ⟨rest, false, false⟩) (markJump rest)
        ((SehStep.jump rip rsp gpr xmm rax rdx).record rest) := update fun d h => by
      show (if rest ≠ [] then d.pending.map _ else none) = if true ∧ rest = [] then none else _
      rw [h]
      by_cases h0 : rest = [] <;> simp [h0, SehStep.isCatch, SehStep.isJump]
    exact .bind hmark fun _ => .bind (modifyCtx _) fun _ => .bind (hpass _) fun _ =>
      .bind (hswitch _) fun _ => ret _

/-- The next step of a record that expects nothing. -/
theorem runNextStep {h : SehStep} {rest : List SehStep} :
    Leaves (some ⟨h :: rest, false, false⟩) (runNextStep size) (h.record rest) := by
  refine get_bind fun d hd => ?_
  rw [hd]
  exact .bind setPending fun _ => runStep h rest

/-- A catch funclet comes back: the next step, if there is one. -/
theorem catchReturn (steps : List SehStep) :
    Leaves (some ⟨steps, true, false⟩) (Wie.continuePending size)
      (match steps with | [] => none | h :: rest => h.record rest) := by
  refine get_bind fun d hd => .bind setPending fun _ => ?_
  rw [hd]
  show Leaves none (if d.engine.ctx.gpr 0 = 0 ∨ _ then _ else _) _
  split
  · exact .bind setPending fun _ => fail _
  · refine .bind (modifyCtx _) fun _ => ?_
    cases steps with
    | nil => exact ret _
    | cons h rest => exact .bind setPending fun _ => runNextStep

/-- A step that was called comes back through the trampoline. -/
theorem continuePending {f h : SehStep} {rest : List SehStep} :
    Leaves (some ⟨h :: rest, f.isCatch, f.isJump⟩) (Wie.continuePending size) (h.record rest) := by
  cases f with
  | msvcCatch => exact catchReturn (h :: rest)
  | action =>
    refine get_bind fun d hd => .bind setPending fun _ => ?_
    rw [hd]
    exact .bind setPending fun _ => runNextStep
  | jump =>
    refine get_bind fun d hd => .bind setPending fun _ => ?_
    rw [hd]
    exact .bind setPending fun _ => runNextStep

/-- A cleanup landing pad comes back through `RtlUnwindEx`. -/
theorem forcedUnwindTo {h : SehStep} {rest : List SehStep} (r : FrameReader) (u : UnwindTarget) :
    Leaves (some ⟨h :: rest, false, true⟩) (Wie.forcedUnwindTo size r u) (h.record rest) := by
  refine get_bind fun d hd => ?_
  rw [hd]
  exact continuePending (f := .jump 0 0 (fun _ => 0) (fun _ => 0) none none)

/-- A throw: the plan is made, and its first step runs. -/
theorem beginOrFinish {h : HandlerFound} {steps : List SehStep} {payload : ThrowPayload}
    {x : SehStep} {rest : List SehStep} (hx : steps ++ [terminalStep h payload] = x :: rest) :
    Leaves p (Wie.beginOrFinish size h steps payload) (x.record rest) := by
  rw [Wie.beginOrFinish, hx]
  exact .bind setPending fun _ => runNextStep

end Dispatch.Leaves

end

/-! ### Plans -/

/-- A plan: actions and cleanups, and then the transfer to the handler. -/
def WellPlanned (plan : List SehStep) : Prop :=
  ∃ acts last, plan = acts ++ [last] ∧ (∀ a ∈ acts, a.isCatch = false) ∧ last.isAction = false

/-- The plan that a throw would make. -/
def plannedBy (r : FrameReader) (e : Engine) (payload : ThrowPayload) : Option (List SehStep) :=
  match e.mem.read (e.ctx.gpr 4).toNat 8 with
  | none => none
  | some ra =>
    match r.searchAndPlan e.ctx (BitVec.ofNat 64 (fromLe ra))
        (BitVec.ofNat 64 (satAdd (e.ctx.gpr 4).toNat 8)) payload with
    | .error _ => none
    | .ok (h, steps) => some (steps ++ [terminalStep h payload])

theorem mem_actionSteps {u : Unwound} {est : BitVec 64} {acts : List ℕ} {s : SehStep}
    (h : s ∈ actionSteps u est acts) : s.isCatch = false := by
  obtain ⟨a, -, rfl⟩ := List.mem_map.mp h
  rfl

namespace FrameReader

variable {r : FrameReader} {payload : ThrowPayload}

theorem mem_catchSteps {u : Unwound} {frame : UnwindContext} {p : ResolvedPad} {s : SehStep}
    (h : s ∈ r.catchSteps u frame p) : s.isCatch = false := by
  rw [catchSteps] at h
  cases hp : p.msvc with
  | none =>
    rw [hp] at h
    cases h
  | some c =>
    rw [hp] at h
    exact mem_actionSteps h

theorem mem_frameSteps {u : Unwound} {hdata : Option ℕ} {frame : UnwindContext} {s : SehStep}
    (h : s ∈ r.frameSteps u hdata frame payload) : s.isCatch = false := by
  cases hdata with
  | none => cases h
  | some hd =>
    simp only [frameSteps] at h
    split at h
    · split at h
      · exact mem_actionSteps h
      · cases h
    · split at h
      · rw [List.mem_singleton.mp h]
        rfl
      · cases h

theorem searchFrames_steps {h : HandlerFound} {steps : List SehStep} : ∀ {rounds : ℕ}
    {frame : UnwindContext} {before : List SehStep}, (∀ s ∈ before, s.isCatch = false) →
      r.searchFrames payload rounds frame before = .ok (h, steps) →
        ∀ s ∈ steps, s.isCatch = false := by
  intro rounds
  induction rounds with
  | zero => exact fun _ hs => by cases hs
  | succ rounds ih =>
    intro frame before hb hs
    have happend : ∀ {more : List SehStep}, (∀ s ∈ more, s.isCatch = false) →
        ∀ s ∈ before ++ more, s.isCatch = false := fun hm s hs =>
      (List.mem_append.mp hs).elim (hb s) (hm s)
    rw [searchFrames] at hs
    split at hs
    · cases hs
    · split at hs
      · obtain ⟨-, rfl⟩ := Prod.mk.inj (Except.ok.inj hs)
        exact happend fun s => mem_catchSteps
      · split at hs
        · cases hs
        · exact ih (happend fun s => mem_frameSteps) hs

end FrameReader

theorem wellPlanned_of_planned {r : FrameReader} {e : Engine} {payload : ThrowPayload}
    {plan : List SehStep} (h : plannedBy r e payload = some plan) : WellPlanned plan := by
  rw [plannedBy] at h
  split at h
  · cases h
  · split at h
    · cases h
    · rename_i found steps hs
      obtain rfl := Option.some.inj h
      refine ⟨steps, _, rfl, FrameReader.searchFrames_steps (fun _ hs => by cases hs) hs, ?_⟩
      rw [terminalStep]
      split <;> rfl

theorem memRead_apply (e : SehError) (a : BitVec 64) (n : ℕ) (d : DispatchState) :
    memRead e a n d = match d.engine.mem.read a.toNat n with
      | some bs => (.ok bs, d)
      | none => (.error e, d) := by
  have hrun : memRead e a n d = (match d.engine.mem.read a.toNat n with
    | some bs => (pure bs : Dispatch _)
    | none => throw e) d := rfl
  rw [hrun]
  cases d.engine.mem.read a.toNat n <;> rfl

/-- A throw that is planned runs the first step of its plan. -/
theorem dispatchException_record {size : ByteMap → ℕ → BitVec 64 → Option ℕ} {r : FrameReader}
    {payload : ThrowPayload} {d d' : DispatchState} {res : WinApiHandlerResult} {x : SehStep}
    {rest : List SehStep} (hp : plannedBy r d.engine payload = some (x :: rest))
    (h : dispatchExceptionWithPayload size r payload d = (.ok res, d')) :
    d'.pending = x.record rest := by
  obtain ⟨t, d₁, ht, h⟩ := Dispatch.bind_ok h
  have ht' : ((Except.ok d.engine.ctx : Except SehError RegFile), d) = (.ok t, d₁) := ht
  obtain ⟨h1, rfl⟩ := Prod.mk.inj ht'
  obtain rfl := Except.ok.inj h1
  obtain ⟨ra, d₂, hra, h⟩ := Dispatch.bind_ok h
  rw [memRead_apply] at hra
  rw [plannedBy] at hp
  cases hread : d.engine.mem.read (d.engine.ctx.gpr 4).toNat 8 with
  | none =>
    rw [hread] at hp
    cases hp
  | some bs =>
    rw [hread] at hra
    obtain ⟨hbs, rfl⟩ := Prod.mk.inj hra
    obtain rfl := Except.ok.inj hbs
    rw [hread] at hp
    dsimp only at hp h
    split at hp
    · cases hp
    · rename_i found steps hs
      rw [hs] at h
      exact Dispatch.Leaves.beginOrFinish (Option.some.inj hp) d res d' rfl h

/-! ### The system -/

/-- A step that a thread is in, and its plan. -/
structure Running where
  /-- Number of the plan. -/
  plan : ℕ
  /-- The step. -/
  step : SehStep

/-- The dispatcher's record, and ghosts. -/
structure SehSys where
  /-- `seh_pending`. -/
  pending : Option SehPending
  /-- The plan that wrote the record. -/
  owner : ℕ
  /-- The steps each thread is in, the innermost first. -/
  stack : ℕ → List Running
  /-- The plans made so far. -/
  plans : List (List SehStep)
  /-- The steps that ran, each with its plan. -/
  ran : List (ℕ × SehStep)

/-- What the guest does next; the engine, what is read of the frames and what `RtlUnwindEx` is
asked for are up to it. -/
inductive SehEvent
  /-- A thread throws. -/
  | raise (t : ℕ) (e : Engine) (r : FrameReader) (payload : ThrowPayload)
  /-- A thread comes back from the step it is in. -/
  | finish (t : ℕ) (e : Engine) (r : FrameReader) (u : UnwindTarget)

namespace SehSys

/-- A plan. -/
def plan (s : SehSys) (p : ℕ) : List SehStep := s.plans.getD p []

/-- The steps of a plan that ran. -/
def executed (s : SehSys) (p : ℕ) : List SehStep := (s.ran.filter (·.1 = p)).map Prod.snd

/-- Nothing has happened. -/
def boot : SehSys := ⟨none, 0, fun _ => [], [], []⟩

/-- Thread `t` runs the first of the steps, of plan `p`, above the steps it is in already. -/
def execute (s : SehSys) (t p : ℕ) (below : List Running) : List SehStep → SehSys
  | [] => { s with stack := Function.update s.stack t below }
  | h :: rest =>
    { s with
      stack := Function.update s.stack t
        (if h.isJump ∧ rest = [] then below else ⟨p, h⟩ :: below)
      ran := s.ran ++ [(p, h)] }

section

variable (size : ByteMap → ℕ → BitVec 64 → Option ℕ)

/-- How a step comes back: a called function through the trampoline, a landing pad through
`RtlUnwindEx`. -/
def comeBack (f : Running) (r : FrameReader) (u : UnwindTarget) : Dispatch WinApiHandlerResult :=
  if f.step.isJump then forcedUnwindTo size r u else continuePending size

/-- The steps whose first one runs when a step comes back. -/
def resumed (f : Running) (pending : Option SehPending) : List SehStep :=
  if f.step.isJump ∧ ¬ hasCleanupResume pending then [] else (pending.map SehPending.steps).getD []

/-- One call of the dispatcher that does not fail. -/
def Step (s : SehSys) (ev : SehEvent) (s' : SehSys) : Prop :=
  match ev with
  | .raise t e r payload => ∃ plan res d, plannedBy r e payload = some plan ∧
      dispatchExceptionWithPayload size r payload ⟨e, s.pending⟩ = (.ok res, d) ∧
      s' = { s.execute t s.plans.length (s.stack t) plan with
        pending := d.pending, owner := s.plans.length, plans := s.plans ++ [plan] }
  | .finish t e r u => ∃ f below res d, s.stack t = f :: below ∧
      comeBack size f r u ⟨e, s.pending⟩ = (.ok res, d) ∧
      s' = { s.execute t s.owner below (resumed f s.pending) with pending := d.pending }

end

/-- **What is asked of a run.** -/
structure Right (s : SehSys) : Prop where
  /-- A plan ends with the transfer to the handler. -/
  planned : ∀ plan ∈ s.plans, WellPlanned plan
  /-- The steps of a plan run in its order, and none twice. -/
  order : ∀ p, s.executed p <+: s.plan p
  /-- A step that comes back finds the record of its plan. -/
  returns : ∀ t f below, s.stack t = f :: below → f.plan = s.owner ∧
    s.pending = some ⟨(s.plan f.plan).drop (s.executed f.plan).length, f.step.isCatch,
      f.step.isJump⟩
  /-- All steps of a plan that has ended ran. -/
  complete : ∀ p, (∀ t, ∀ f ∈ s.stack t, f.plan ≠ p) → s.executed p = s.plan p
  /-- When all plans have ended there is no record. -/
  idle : (∀ t, s.stack t = []) → s.pending = none

/-- No plan is in progress, in any thread, when an exception is thrown. -/
def Alone (s : SehSys) : SehEvent → Prop
  | .raise .. => ∀ t, s.stack t = []
  | .finish .. => True

/-- At most one plan is in progress. -/
inductive Inv (s : SehSys) : Prop
  /-- None is. -/
  | idle (planned : ∀ plan ∈ s.plans, WellPlanned plan) (stack : ∀ t, s.stack t = [])
      (pending : s.pending = none) (complete : ∀ p, s.executed p = s.plan p)
  /-- Thread `t` is in a step of the last one. -/
  | busy (t : ℕ) (f : Running) (rest : List SehStep)
      (planned : ∀ plan ∈ s.plans, WellPlanned plan) (stack : s.stack = Function.update (fun _ => []) t [f])
      (plan : f.plan = s.owner) (pending : s.pending = some ⟨rest, f.step.isCatch, f.step.isJump⟩)
      (split : s.plan s.owner = s.executed s.owner ++ rest)
      (last : rest = [] → f.step.isCatch = true)
      (complete : ∀ p ≠ s.owner, s.executed p = s.plan p)

theorem inv_boot : Inv boot :=
  .idle (fun _ h => by cases h) (fun _ => rfl) rfl fun _ => rfl

/-- The invariant gives what is asked. -/
theorem Inv.right {s : SehSys} (h : Inv s) : s.Right := by
  cases h with
  | idle planned stack pending complete =>
    refine ⟨planned, fun p => ?_, fun t f below ht => ?_, fun p _ => complete p, fun _ => pending⟩
    · rw [complete p]
    · rw [stack t] at ht
      cases ht
  | busy t f rest planned stack plan pending split last complete =>
    have hself : s.stack t = [f] := by rw [stack, Function.update_self]
    refine ⟨planned, fun p => ?_, fun u g below hu => ?_, fun p hp => ?_, fun hidle => ?_⟩
    · by_cases hp : p = s.owner
      · rw [hp, split]
        exact List.prefix_append _ _
      · rw [complete p hp]
    · have hut : u = t := by
        by_contra hne
        rw [stack, Function.update_of_ne hne] at hu
        cases hu
      subst hut
      rw [hself] at hu
      obtain ⟨rfl, -⟩ := List.cons.inj hu
      rw [plan, split, List.drop_left]
      exact ⟨rfl, pending⟩
    · refine complete p fun hpo => hp t f ?_ (plan.trans hpo.symm)
      rw [hself]
      exact .head _
    · have := hidle t
      rw [hself] at this
      cases this

theorem executed_append (s : SehSys) (p q : ℕ) (h : SehStep) :
    ((s.ran ++ [(p, h)]).filter (·.1 = q)).map Prod.snd =
      s.executed q ++ if p = q then [h] else [] := by
  rw [List.filter_append, List.map_append, executed]
  by_cases hpq : p = q <;> simp [hpq]

theorem plan_mem {s : SehSys} {p : ℕ} (h : s.plan p ≠ []) : s.plan p ∈ s.plans := by
  rw [plan, List.getD_eq_getElem?_getD] at h ⊢
  cases hq : s.plans[p]? with
  | none => simp [hq] at h
  | some q => exact List.mem_of_getElem? hq

/-- The last step of a plan is no action. -/
theorem WellPlanned.last {plan done : List SehStep} {h : SehStep} (hp : WellPlanned plan)
    (he : plan = done ++ [h]) : h.isAction = false := by
  obtain ⟨acts, last, rfl, -, hlast⟩ := hp
  rwa [(List.append_inj' he rfl).2 |> List.cons.inj |>.1] at hlast

/-- **The next step of the only plan in progress.** -/
theorem inv_execute {s : SehSys} {t : ℕ} {h : SehStep} {rest : List SehStep}
    (planned : ∀ plan ∈ s.plans, WellPlanned plan) (stack : ∀ u ≠ t, s.stack u = [])
    (split : s.plan s.owner = s.executed s.owner ++ h :: rest)
    (complete : ∀ p ≠ s.owner, s.executed p = s.plan p) :
    Inv { s.execute t s.owner [] (h :: rest) with pending := h.record rest } := by
  have hplan : WellPlanned (s.plan s.owner) := planned _ (plan_mem (by rw [split]; simp))
  have hself : (s.executed s.owner ++ if s.owner = s.owner then [h] else []) ++ rest =
      s.plan s.owner := by rw [if_pos rfl, split, List.append_assoc]; rfl
  have hother : ∀ p ≠ s.owner, (s.executed p ++ if s.owner = p then [h] else []) = s.plan p := by
    intro p hp
    rw [if_neg (Ne.symm hp), List.append_nil, complete p hp]
  have hstack : ∀ l, Function.update s.stack t l = Function.update (fun _ => []) t l := by
    intro l
    funext u
    by_cases hu : u = t
    · rw [hu, Function.update_self, Function.update_self]
    · rw [Function.update_of_ne hu, Function.update_of_ne hu, stack u hu]
  by_cases hend : h.isJump ∧ rest = []
  · obtain ⟨hj, rfl⟩ := hend
    refine .idle planned (fun u => ?_) (if_pos ⟨hj, rfl⟩) fun p => ?_
    · show Function.update s.stack t (if h.isJump ∧ [] = [] then [] else _) u = []
      rw [if_pos ⟨hj, rfl⟩, hstack]
      by_cases hu : u = t
      · rw [hu, Function.update_self]
      · rw [Function.update_of_ne hu]
    · show ((s.ran ++ [(s.owner, h)]).filter (·.1 = p)).map Prod.snd = s.plan p
      rw [executed_append]
      by_cases hp : p = s.owner
      · rw [hp, ← hself, List.append_nil]
      · exact hother p hp
  · refine .busy t ⟨s.owner, h⟩ rest planned ?_ rfl (if_neg hend) ?_ ?_ fun p hp => ?_
    · show Function.update s.stack t (if h.isJump ∧ rest = [] then [] else _) = _
      rw [if_neg hend, hstack]
    · show s.plan s.owner = ((s.ran ++ [(s.owner, h)]).filter (·.1 = s.owner)).map Prod.snd ++ rest
      rw [executed_append, hself]
    · rintro rfl
      have hlast := WellPlanned.last hplan split
      show h.isCatch = true
      cases h with
      | action => cases hlast
      | msvcCatch => rfl
      | jump => exact absurd ⟨rfl, rfl⟩ hend
    · show ((s.ran ++ [(s.owner, h)]).filter (·.1 = p)).map Prod.snd = s.plan p
      rw [executed_append]
      exact hother p hp

variable {size : ByteMap → ℕ → BitVec 64 → Option ℕ}

theorem getD_append_singleton {α : Type} (l : List (List α)) (q : List α) (p : ℕ) :
    (l ++ [q]).getD p [] = if p = l.length then q else l.getD p [] := by
  rw [List.getD_eq_getElem?_getD, List.getD_eq_getElem?_getD, List.getElem?_append]
  split_ifs with h1 h2 h2
  · omega
  · rfl
  · rw [h2, Nat.sub_self, List.getElem?_cons_zero, Option.getD_some]
  · rw [List.getElem?_eq_none (by simp; omega), List.getElem?_eq_none (by omega)]

/-- A throw while no plan is in progress. -/
theorem Inv.raise {s s' : SehSys} {t : ℕ} {e : Engine} {r : FrameReader} {payload : ThrowPayload}
    (h : Inv s) (hs : Step size s (.raise t e r payload) s') (halone : ∀ u, s.stack u = []) :
    Inv s' := by
  obtain ⟨plan, res, d, hplan, hd, rfl⟩ := hs
  cases h with
  | busy u f rest planned stack plan' pending split last complete =>
    have := halone u
    rw [stack, Function.update_self] at this
    cases this
  | idle planned stack pending complete =>
    have hwell := wellPlanned_of_planned hplan
    cases plan with
    | nil =>
      obtain ⟨acts, last, he, -⟩ := hwell
      simp at he
    | cons x rest =>
      have hrec : d.pending = x.record rest := dispatchException_record hplan hd
      have hempty : s.executed s.plans.length = [] := by
        rw [complete, SehSys.plan, List.getD_eq_getElem?_getD, List.getElem?_eq_none le_rfl,
          Option.getD_none]
      rw [hrec, halone t]
      refine inv_execute (s := { s with owner := s.plans.length, plans := s.plans ++ [x :: rest] })
        (fun q hq => ?_) (fun u _ => halone u) ?_ fun p hp => ?_
      · rcases List.mem_append.mp hq with hq | hq
        · exact planned q hq
        · rwa [List.mem_singleton.mp hq]
      · show (s.plans ++ [x :: rest]).getD s.plans.length [] = s.executed s.plans.length ++ x :: rest
        rw [getD_append_singleton, if_pos rfl, hempty, List.nil_append]
      · show s.executed p = (s.plans ++ [x :: rest]).getD p []
        rw [getD_append_singleton, if_neg hp]
        exact complete p

/-- The step in progress comes back. -/
theorem Inv.finish {s s' : SehSys} {t : ℕ} {e : Engine} {r : FrameReader} {u : UnwindTarget}
    (h : Inv s) (hs : Step size s (.finish t e r u) s') : Inv s' := by
  obtain ⟨f, below, res, d, ht, hd, rfl⟩ := hs
  cases h with
  | idle planned stack pending complete =>
    rw [stack t] at ht
    cases ht
  | busy v g rest planned stack plan pending split last complete =>
    have hvt : t = v := by
      by_contra hne
      rw [stack, Function.update_of_ne hne] at ht
      cases ht
    subst hvt
    rw [stack, Function.update_self] at ht
    obtain ⟨rfl, rfl⟩ := List.cons.inj ht
    have hothers : ∀ v ≠ t, s.stack v = [] := fun v hv => by rw [stack, Function.update_of_ne hv]
    -- a landing pad in progress has steps after it
    have hresumed : resumed g s.pending = rest := by
      rw [resumed, pending, if_neg]
      · rfl
      · rintro ⟨hj, hno⟩
        cases rest with
        | nil =>
          have hc := last rfl
          cases hg : g.step <;> simp [hg, SehStep.isCatch, SehStep.isJump] at hc hj
        | cons h rest => simp [hasCleanupResume, hj] at hno
    rw [hresumed]
    cases rest with
    | nil =>
      have hc := last rfl
      have hj : g.step.isJump = false := by
        cases hg : g.step <;> simp [hg, SehStep.isCatch, SehStep.isJump] at hc ⊢
      rw [comeBack, hj, if_neg (by simp)] at hd
      rw [hc, hj] at pending
      have hnone : d.pending = none :=
        Dispatch.Leaves.catchReturn [] ⟨e, s.pending⟩ res d pending hd
      refine .idle planned (fun v => ?_) hnone fun p => ?_
      · show Function.update s.stack t [] v = []
        by_cases hv : v = t
        · rw [hv, Function.update_self]
        · rw [Function.update_of_ne hv, hothers v hv]
      · by_cases hp : p = s.owner
        · subst hp
          exact (split.trans (List.append_nil _)).symm
        · exact complete p hp
    | cons h rest =>
      have hrec : d.pending = h.record rest := by
        cases hj : g.step.isJump with
        | true =>
          rw [comeBack, hj, if_pos rfl] at hd
          have hc : g.step.isCatch = false := by
            cases hg : g.step <;> simp [hg, SehStep.isCatch, SehStep.isJump] at hj ⊢
          rw [hc, hj] at pending
          exact Dispatch.Leaves.forcedUnwindTo r u ⟨e, s.pending⟩ res d pending hd
        | false =>
          rw [comeBack, hj, if_neg (by simp)] at hd
          exact Dispatch.Leaves.continuePending ⟨e, s.pending⟩ res d pending hd
      rw [hrec]
      exact inv_execute planned hothers split complete

/-- **Where every throw happens while no plan is in progress, every state is right.** -/
theorem right_of_alone {s : SehSys} (h : GuardedReach (· = boot) Alone (Step size) s) : s.Right := by
  refine Inv.right (h.invariant (fun s hs => by rw [hs]; exact inv_boot) fun s ev s' hi hg hs => ?_)
  cases ev with
  | raise t e r payload => exact hi.raise hs hg
  | finish t e r u => exact hi.finish hs

/-- The record stays with the last plan, or with a later one. -/
theorem owner_of_path {s s' : SehSys} {n : ℕ} (hp : GuardedPath (fun _ _ => True) (Step size) s s')
    (h : n ≤ s.owner ∧ n ≤ s.plans.length) : n ≤ s'.owner ∧ n ≤ s'.plans.length := by
  refine hp.invariant (I := fun s => n ≤ s.owner ∧ n ≤ s.plans.length) ?_ h
  intro s ev s' h _ hs
  cases ev with
  | raise t e r payload =>
    obtain ⟨plan, res, d, -, -, rfl⟩ := hs
    refine ⟨h.2, ?_⟩
    show n ≤ (s.plans ++ [plan]).length
    rw [List.length_append]
    exact h.2.trans (Nat.le_add_right _ _)
  | finish t e r u =>
    obtain ⟨f, below, res, d, -, -, rfl⟩ := hs
    cases hres : resumed f s.pending <;> exact h

/-- **A plan that is overtaken by a throw never comes back right**, however the run goes on. -/
theorem not_right_of_overtaken {s s₁ s₂ : SehSys} {t u : ℕ} {e : Engine} {r : FrameReader}
    {payload : ThrowPayload} {f : Running} {below : List Running} (hf : f.plan < s.plans.length)
    (hs : Step size s (.raise t e r payload) s₁)
    (hp : GuardedPath (fun _ _ => True) (Step size) s₁ s₂) (hu : s₂.stack u = f :: below) :
    ¬ s₂.Right := by
  intro h
  obtain ⟨plan, res, d, -, -, rfl⟩ := hs
  have howner := owner_of_path (n := s.plans.length) hp
    ⟨le_rfl, by simp only [List.length_append]; omega⟩
  have hplan := (h.returns u f below hu).1
  omega

/-! ### Samples -/

/-- The state after a throw, if the dispatcher does not fail. -/
def thrown (size : ByteMap → ℕ → BitVec 64 → Option ℕ) (s : SehSys) (t : ℕ) (e : Engine)
    (r : FrameReader) (payload : ThrowPayload) : Option SehSys :=
  match plannedBy r e payload, dispatchExceptionWithPayload size r payload ⟨e, s.pending⟩ with
  | some plan, (.ok _, d) => some { s.execute t s.plans.length (s.stack t) plan with
      pending := d.pending, owner := s.plans.length, plans := s.plans ++ [plan] }
  | _, _ => none

theorem step_of_thrown {s s' : SehSys} {t : ℕ} {e : Engine} {r : FrameReader}
    {payload : ThrowPayload} (h : thrown size s t e r payload = some s') :
    Step size s (.raise t e r payload) s' := by
  rw [thrown] at h
  split at h
  · rename_i plan res d hplan hd
    exact ⟨plan, res, d, hplan, hd, (Option.some.inj h).symm⟩
  · cases h

/-- An engine with a stack. -/
def sampleEngine : Engine where
  ctx := ⟨fun i => if i = 4 then 0x2000 else 0, fun _ => 0, 0x401000, 0x202⟩
  mem := fun a => if 0x1000 ≤ a ∧ a < 0x3000 then some 0x11 else none

/-- The frame of a caller. -/
def sampleCaller : Unwound where
  ctx := ⟨0x402000, 0x2040, fun _ => 0, fun _ => 0⟩
  imageBase := 0x400000
  entry := ⟨0x1000, 0x1100, 0x3000⟩
  unwindVa := 0x403000
  exceptionDataVa := none

/-- A catch for any type. -/
def sampleCatch : MsvcCatch := ⟨0, 0x40, 0, 0, 0, ⟨1, 0x3100⟩⟩

/-- A frame with an object to destroy, called from a frame with a catch. -/
def destroyThenCatch : FrameReader where
  unwindOne := fun _ => some (sampleCaller, some 0)
  resolveLandingPad := fun rip _ _ _ =>
    if rip = 0x402000 then some ⟨0x402100, some sampleCatch, none⟩ else none
  parseFuncInfo := fun _ _ => some ⟨1, 0x3100⟩
  stateForIp := fun _ _ _ => some 0
  collectUnwindActions := fun _ _ _ _ => [0x1200]
  findCleanupLandingPad := fun _ _ _ => none

/-- A frame that catches by itself. -/
def catchHere : FrameReader where
  unwindOne := fun _ => some (sampleCaller, some 0)
  resolveLandingPad := fun _ _ _ _ => some ⟨0x402200, none, some 1⟩
  parseFuncInfo := fun _ _ => none
  stateForIp := fun _ _ _ => none
  collectUnwindActions := fun _ _ _ _ => []
  findCleanupLandingPad := fun _ _ _ => none

/-- What is thrown. -/
def samplePayload : ThrowPayload := ⟨0, 0, false⟩

/-- Thread 0 throws, and runs a destructor. -/
def destroying : SehSys :=
  (boot.thrown (fun _ _ _ => none) 0 sampleEngine destroyThenCatch samplePayload).getD boot

/-- Meanwhile thread `t` throws, and catches what it threw. -/
def overtaken (t : ℕ) : SehSys :=
  (destroying.thrown (fun _ _ _ => none) t sampleEngine catchHere samplePayload).getD boot

theorem some_getD {α : Type} {o : Option α} {a : α} (h : o.isSome = true) :
    o = some (o.getD a) := by
  cases o with
  | none => cases h
  | some b => rfl

theorem step_destroying : Step (fun _ _ _ => none) boot
    (.raise 0 sampleEngine destroyThenCatch samplePayload) destroying :=
  step_of_thrown (some_getD (by decide +kernel))

/-- A single throw is right. -/
theorem right_destroying : destroying.Right :=
  right_of_alone (.step (.init rfl)
    (show boot.Alone (.raise 0 sampleEngine destroyThenCatch samplePayload) from fun _ => rfl)
    step_destroying)

/-- The run that is overtaken. -/
theorem reach_overtaken {t : ℕ} (ht : t = 0 ∨ t = 1) :
    GuardedReach (· = boot) (fun _ _ => True) (Step (fun _ _ _ => none)) (overtaken t) := by
  refine .step (.step (.init rfl) trivial step_destroying) trivial
    (o := .raise t sampleEngine catchHere samplePayload) (step_of_thrown ?_)
  rcases ht with rfl | rfl <;> exact some_getD (by decide +kernel)

/-- Thread 0 is still in the destructor, whose plan has lost the record. -/
theorem not_right_overtaken {t : ℕ} (ht : t = 0 ∨ t = 1) : ¬ (overtaken t).Right := by
  intro h
  have hfacts : ((overtaken t).stack 0).map Running.plan = [0] ∧ (overtaken t).owner = 1 := by
    rcases ht with rfl | rfl <;> decide +kernel
  cases hstack : (overtaken t).stack 0 with
  | nil => simp [hstack] at hfacts
  | cons f below =>
    have hplan := (h.returns 0 f below hstack).1
    rw [hstack, List.map_cons, hplan, hfacts.2] at hfacts
    simp at hfacts

/-- **A throw that is caught inside a destructor, and a throw on another thread**, while thread 0
runs a destructor for an exception of its own. -/
theorem not_right_samples :
    (GuardedReach (· = boot) (fun _ _ => True) (Step (fun _ _ _ => none)) (overtaken 0) ∧
      ¬ (overtaken 0).Right) ∧
    (GuardedReach (· = boot) (fun _ _ => True) (Step (fun _ _ _ => none)) (overtaken 1) ∧
      ¬ (overtaken 1).Right) :=
  ⟨⟨reach_overtaken (.inl rfl), not_right_overtaken (.inl rfl)⟩,
    ⟨reach_overtaken (.inr rfl), not_right_overtaken (.inr rfl)⟩⟩

end SehSys

end Wie
