import Wie.Mem.FlatStore
import Wie.Winapi.LoadDll

/-!
# Loading beside what is mapped

A load of a DLL on guest memory. The memory is mapped without a look at what is there, so that an
image comes to lie on pages that are in use, or is told its place by them only when the host has no
room. Where the place was free and the file keeps to its image, nothing outside the image changes:
each call that the loader makes is one on the pages of the image.

## Main definitions

* `memoryEngine` — guest memory as the engine of a load
* `Beside` — nothing has changed outside a range
* `FileInside` — the headers, sections and slots of a file are inside its image
* `LoadCall`, `LoadReach` — loads with other calls in between
* `LoadsApart` — a load finds its place free and changes nothing else

## Main results

* `GuestMemory.Change.beside` — a call in a range
* `fillImage_beside` — the loader, behind the mapping
* `loads_apart` — every load of a run under the guard
-/

namespace Wie

open GuestMemory

variable {env : HostEnv} {σ α β : Type}

/-! ### Guest memory as an engine -/

/-- The text of an error. -/
def CpuError.text : CpuError → String
  | .message text => text

/-- A call has returned with the memory, or the host has ended the process. -/
def ofOutcome (r : Outcome α × GuestMemory) : Except String α × Option GuestMemory :=
  match r.1 with
  | .ok a => (.ok a, some r.2)
  | .error e => (.error e.text, some r.2)
  | .crash => (.error "the host has ended the process", none)

/-- A call in a process that may have been ended. -/
def onMemory (call : GuestMemory → Outcome α × GuestMemory) :
    Option GuestMemory → Except String α × Option GuestMemory
  | none => (.error "the host has ended the process", none)
  | some m => ofOutcome (call m)

/-- The engine of a load, on guest memory. -/
def memoryEngine (env : HostEnv) : EngineOps (Option GuestMemory) where
  memMap base size perms := onMemory fun m =>
    (.ofExcept (m.map env base.toNat size perms).1, (m.map env base.toNat size perms).2)
  memWrite base bytes := onMemory fun m => m.write env base.toNat bytes
  memRead base len := onMemory fun m => m.read env base.toNat len
  virtualProtect base size protect := onMemory fun m =>
    (.ofExcept (m.virtualProtect env base.toNat size protect).1,
      (m.virtualProtect env base.toNat size protect).2)

/-! ### One call -/

/-- The address is in the range from `lo` up to `hi`. -/
def Between (lo hi x : ℕ) : Prop := lo ≤ x ∧ x < hi

/-- Outside the range no page has changed, and no byte of a page in use. No page is free that was
in use. -/
structure Beside (env : HostEnv) (lo hi : ℕ) (m m' : GuestMemory) : Prop where
  inv : Inv env m'
  table : ∀ x, ¬Between lo hi x → m'.pages.table (x / 0x1000) = m.pages.table (x / 0x1000)
  byte : ∀ x, ¬Between lo hi x → m.pages.table (x / 0x1000) ≠ none →
    m'.backend.byte x = m.backend.byte x
  used : ∀ x, m.pages.table (x / 0x1000) ≠ none → m'.pages.table (x / 0x1000) ≠ none

namespace Beside

variable {lo hi : ℕ} {m m' m'' : GuestMemory}

theorem refl (h : Inv env m) : Beside env lo hi m m :=
  ⟨h, fun _ _ => rfl, fun _ _ _ => rfl, fun _ => id⟩

theorem trans (h : Beside env lo hi m m') (h' : Beside env lo hi m' m'') :
    Beside env lo hi m m'' where
  inv := h'.inv
  table x hx := (h'.table x hx).trans (h.table x hx)
  byte x hx hu := (h'.byte x hx (h.used x hu)).trans (h.byte x hx hu)
  used x hu := h'.used x (h.used x hu)

theorem mono {lo' hi' : ℕ} (h : Beside env lo hi m m')
    (hr : ∀ x, Between lo hi x → Between lo' hi' x) : Beside env lo' hi' m m' where
  inv := h.inv
  table x hx := h.table x (mt (hr x) hx)
  byte x hx := h.byte x (mt (hr x) hx)
  used := h.used

end Beside

namespace GuestMemory

variable {m m' : GuestMemory} {lo hi : ℕ}

/-- The call can set pages free. -/
def Op.Frees : Op → Prop
  | .virtualFree _ _ _ => True
  | _ => False

/-- The pages of a range have been set, none of them free. -/
theorem used_of_set {a size protect : ℕ} {state : PageState} (hr : PageRange a size)
    (hstate : state ≠ .free)
    (htable : m'.pages.table =
      m.pages.table.set (a / 0x1000) ((a + size) / 0x1000) state protect) {x : ℕ}
    (hu : m.pages.table (x / 0x1000) ≠ none) : m'.pages.table (x / 0x1000) ≠ none := by
  rw [htable, set_range_apply hr, if_neg hstate]
  split
  · exact Option.some_ne_none _
  · exact hu

/-- **What is in use stays in use**, unless it is set free. -/
theorem Change.used {op : Op} {ok : Bool} (hc : Change env m op ok m')
    (hop : ok = true → ¬op.Frees) {x : ℕ} (hu : m.pages.table (x / 0x1000) ≠ none) :
    m'.pages.table (x / 0x1000) ≠ none := by
  cases hc with
  | same _ hs => rwa [hs.table]
  | bumped hs => rwa [hs.table]
  | mapGrew hg => rwa [hg.rest]
  | mapped hm => exact used_of_set hm.range (by decide) hm.table hu
  | reserveGrew _ _ _ _ _ hg => rwa [hg.rest]
  | reserved _ _ _ hr => exact used_of_set hr.range hr.used hr.table hu
  | committed _ _ _ _ hr => exact used_of_set hr.range (by decide) hr.table hu
  | decommitted _ _ _ _ _ => exact absurd trivial (hop rfl)
  | reprotected _ _ _ _ hr => exact used_of_set hr.range (by decide) hr.table hu
  | released _ _ _ => exact absurd trivial (hop rfl)
  | wrote hw => rwa [hw.table]

/-- The pages that a call is about are in the range. -/
def Op.Within (lo hi : ℕ) : Op → Prop
  | .map address size _ _ => size = 0 ∨ lo ≤ address ∧ address + size ≤ hi
  | .write address bytes => bytes = [] ∨ lo ≤ address ∧ address + bytes.length ≤ hi
  | .virtualProtect addr size _ =>
    (lo % 0x1000 = 0 ∧ hi % 0x1000 = 0) ∧ lo ≤ addr ∧ addr + size ≤ hi
  | .read _ _ => True
  | .registerRegion _ => True
  | _ => False

theorem Op.Within.not_frees {op : Op} (h : op.Within lo hi) : ¬op.Frees := by
  cases op with
  | virtualFree _ _ _ => exact absurd h id
  | _ => exact id

variable (lo hi) in
theorem Same.beside (hs : Same m m') (h : Inv env m) : Beside env lo hi m m' where
  inv := hs.inv h
  table x _ := by rw [hs.table]
  byte x _ _ := by rw [hs.backend]
  used x hu := by rwa [hs.table]

/-- What has changed when the pages of a range have been set. -/
theorem beside_of_set {a size protect : ℕ} {state : PageState} (hr : PageRange a size)
    (hstate : state ≠ .free)
    (htable : m'.pages.table =
      m.pages.table.set (a / 0x1000) ((a + size) / 0x1000) state protect) (hinv : Inv env m')
    (hbyte : ∀ x, m.pages.table (x / 0x1000) ≠ none → m'.backend.byte x = m.backend.byte x) :
    Beside env a (a + size) m m' where
  inv := hinv
  table x hx := by
    rw [htable, set_range_apply hr]
    exact if_neg hx
  byte x _ hu := hbyte x hu
  used _ hu := used_of_set hr hstate htable hu

/-- **A call in a range** changes nothing outside. A call that fails changes nothing at all that is
in use. -/
theorem Change.beside {op : Op} {ok : Bool} (hc : Change env m op ok m') (h : Inv env m)
    (hop : ok = true → op.Within lo hi) : Beside env lo hi m m' := by
  have hinv := hc.inv h
  have hused : ∀ x, m.pages.table (x / 0x1000) ≠ none → m'.pages.table (x / 0x1000) ≠ none :=
    fun _ => hc.used fun hok => (hop hok).not_frees
  cases hc with
  | same _ hs => exact hs.beside lo hi h
  | bumped hs =>
    obtain ⟨-, htable, hbyte, -⟩ := hs.beside lo hi (inv_bumpGeneration h)
    exact ⟨hinv, htable, hbyte, hused⟩
  | mapGrew hg =>
    exact ⟨hinv, fun x _ => by rw [hg.rest],
      fun x _ hu => hg.grown.byte h.placed (h.backed x hu), hused⟩
  | @mapped address size _ _ _ hm =>
    obtain ⟨b, hst, hsy⟩ := hm.backend
    have hset : Beside env address (address + size) m m' :=
      beside_of_set hm.range (by decide) hm.table hinv fun x hu =>
        (byte_congr hsy.arenas hsy.mem x).trans (hst.grown.byte h.placed (h.backed x hu))
    refine hset.mono fun x hx => ?_
    rcases hop rfl with hz | hin
    · exact absurd hm.range.pos (by omega)
    · exact ⟨hin.1.trans hx.1, hx.2.trans_le hin.2⟩
  | reserveGrew _ _ _ _ _ hg =>
    exact ⟨hinv, fun x _ => by rw [hg.rest],
      fun x _ hu => hg.grown.byte h.placed (h.backed x hu), hused⟩
  | reserved _ _ _ _ => exact absurd (hop rfl) id
  | committed _ _ _ _ _ => exact absurd (hop rfl) id
  | decommitted _ _ _ _ _ => exact absurd (hop rfl) id
  | @reprotected addr size₀ protect a size old _ hz hp _ hb hr =>
    have hset : Beside env a (a + size) m m' :=
      beside_of_set hr.range (by decide) hr.table hinv fun x _ => byte_congr hb.arenas hb.mem x
    -- the range is whole pages, and so are those that the call touches
    obtain ⟨⟨-, ha, hsize, -⟩, -, h1, h2, h3, h4, -⟩ :=
      h.pageRange_eq_ok (Nat.pos_of_ne_zero hz) acceptCommitted_isOk hp
    obtain ⟨⟨hlo, hhi⟩, hlo', hhi'⟩ := hop rfl
    have hbounds : lo ≤ a ∧ a + size ≤ hi := by omega
    exact hset.mono fun x hx => ⟨hbounds.1.trans hx.1, hx.2.trans_le hbounds.2⟩
  | released _ _ _ => exact absurd (hop rfl) id
  | @wrote address bytes _ hw =>
    refine ⟨hinv, fun x _ => by rw [hw.table], fun x hx _ => ?_, hused⟩
    rw [hw.backend.byte, if_neg]
    intro hin
    rcases hop rfl with rfl | hop
    · simp at hin
      omega
    · exact hx ⟨hop.1.trans hin.1, hin.2.trans_le hop.2⟩

end GuestMemory

/-! ### One stage -/

section Stages

open Load

variable {lo hi : ℕ} {s : LoadState (Option GuestMemory) σ}

/-- The stage, started here, changes nothing outside the range, or the host ends the process and the
stage fails. -/
def ConfinedAt (env : HostEnv) (lo hi : ℕ) (x : Load (Option GuestMemory) σ α)
    (s : LoadState (Option GuestMemory) σ) : Prop :=
  ∀ m, s.engine = some m → Inv env m →
    ((x s).2.engine = none ∧ ∃ e, (x s).1 = .error e) ∨
      ∃ m', (x s).2.engine = some m' ∧ Beside env lo hi m m'

namespace ConfinedAt

theorem of_engine {x : Load (Option GuestMemory) σ α} (h : (x s).2.engine = s.engine) :
    ConfinedAt env lo hi x s := by
  intro m hm hinv
  exact .inr ⟨m, h.trans hm, .refl hinv⟩

theorem pure (a : α) : ConfinedAt env lo hi (Pure.pure a) s := of_engine rfl

theorem ofExcept (x : Except String α) : ConfinedAt env lo hi (Load.ofExcept x) s := of_engine rfl

/-- **What comes next** is asked only about the states that the stage leads to. -/
theorem bind {x : Load (Option GuestMemory) σ α} {f : α → Load (Option GuestMemory) σ β}
    (hx : ConfinedAt env lo hi x s)
    (hf : ∀ a s', x s = (.ok a, s') → ConfinedAt env lo hi (f a) s') :
    ConfinedAt env lo hi (x >>= f) s := by
  intro m hm hinv
  have hfirst := hx m hm hinv
  rw [bind_apply]
  rcases hxs : x s with ⟨e | a, s'⟩
  · rw [hxs] at hfirst
    exact hfirst.imp (fun h => ⟨h.1, e, rfl⟩) id
  · rw [hxs] at hfirst
    rcases hfirst with ⟨-, e, he⟩ | ⟨m', hm', hbeside⟩
    · cases he
    · rcases hf a s' hxs m' hm' hbeside.inv with hended | ⟨m'', hm'', hbeside'⟩
      · exact .inl hended
      · exact .inr ⟨m'', hm'', hbeside.trans hbeside'⟩

theorem ite {x y : Load (Option GuestMemory) σ α} {p : Prop} [Decidable p]
    (hx : p → ConfinedAt env lo hi x s) (hy : ConfinedAt env lo hi y s) :
    ConfinedAt env lo hi (if p then x else y) s := by
  split
  · exact hx ‹p›
  · exact hy

theorem context (msg : String) {x : Load (Option GuestMemory) σ α}
    (hx : ConfinedAt env lo hi x s) : ConfinedAt env lo hi (x.context msg) s := by
  intro m hm hinv
  refine (hx m hm hinv).imp (fun h => ⟨h.1, ?_⟩) id
  obtain ⟨e, he⟩ := h.2
  refine ⟨msg, ?_⟩
  show withContext msg (x s).1 = _
  rw [he]
  rfl

end ConfinedAt

theorem isOk_void (r : Outcome α) : isOk (void r) = isOk r := by
  cases r <;> rfl

theorem void_ne_crash {r : Outcome α} : void r ≠ .crash ↔ r ≠ .crash := by
  cases r <;> simp [void]

/-- A call of guest memory is one of the calls that are known. -/
structure IsOp (env : HostEnv) (call : GuestMemory → Outcome α × GuestMemory) (op : Op) : Prop where
  run : ∀ m, op.run env m = (void (call m).1, (call m).2)

namespace IsOp

variable {call : GuestMemory → Outcome α × GuestMemory} {op : Op}

theorem change (h : IsOp env call op) {m : GuestMemory} (hinv : Inv env m)
    (hne : (call m).1 ≠ .crash) : Change env m op (isOk (call m).1) (call m).2 := by
  have hrun := h.run m
  have hchange := hinv.change op (by
    rw [hrun]
    exact void_ne_crash.mpr hne)
  rw [hrun, isOk_void] at hchange
  exact hchange

/-- **What a call leaves behind**: the process has ended, or nothing has changed outside. -/
theorem beside (h : IsOp env call op) {m : GuestMemory} (hinv : Inv env m)
    (hop : op.Within lo hi) : (call m).1 = .crash ∨ Beside env lo hi m (call m).2 := by
  by_cases hcrash : (call m).1 = .crash
  · exact .inl hcrash
  · exact .inr ((h.change hinv hcrash).beside hinv fun _ => hop)

end IsOp

/-- A stage that is one call. -/
theorem ConfinedAt.onEngine {call : GuestMemory → Outcome α × GuestMemory} {op : Op}
    (h : IsOp env call op) {msg : String} (hop : op.Within lo hi) :
    ConfinedAt env lo hi (Load.onEngine msg (onMemory call)) s := by
  intro m hm hinv
  rw [Load.onEngine, hm]
  rcases h.beside hinv hop with hcrash | hbeside
  · left
    rw [onMemory, ofOutcome, hcrash]
    exact ⟨rfl, _, rfl⟩
  · rcases hc : (call m).1 with a | e | _
    · exact .inr ⟨(call m).2, by rw [onMemory, ofOutcome, hc], hbeside⟩
    · exact .inr ⟨(call m).2, by rw [onMemory, ofOutcome, hc], hbeside⟩
    · left
      rw [onMemory, ofOutcome, hc]
      exact ⟨rfl, _, rfl⟩

/-- A call that has succeeded. -/
theorem onEngine_eq_ok {call : GuestMemory → Outcome α × GuestMemory} {msg : String}
    {s' : LoadState (Option GuestMemory) σ} {a : α} {m : GuestMemory} (hm : s.engine = some m)
    (h : Load.onEngine msg (onMemory call) s = (.ok a, s')) : (call m).1 = .ok a := by
  rw [Load.onEngine, hm, Prod.mk.injEq, withContext_eq_ok] at h
  have hcall := h.1
  rw [onMemory, ofOutcome] at hcall
  rcases hc : (call m).1 with b | e | _
  · rw [hc] at hcall
    cases hcall
    rfl
  · rw [hc] at hcall
    cases hcall
  · rw [hc] at hcall
    cases hcall

theorem isOp_map (base size perms : ℕ) :
    IsOp env (fun m => (.ofExcept (m.map env base size perms).1, (m.map env base size perms).2))
      (.map base size perms .priv) := ⟨fun _ => rfl⟩

theorem isOp_write (base : ℕ) (bytes : List UInt8) :
    IsOp env (fun m => m.write env base bytes) (.write base bytes) where
  run m := by
    rw [Op.run]
    rcases m.write env base bytes with ⟨_ | _ | _, m'⟩ <;> rfl

theorem isOp_read (base len : ℕ) :
    IsOp env (fun m => m.read env base len) (.read base len) := ⟨fun _ => rfl⟩

theorem isOp_virtualProtect (base size protect : ℕ) :
    IsOp env (fun m => (.ofExcept (m.virtualProtect env base size protect).1,
      (m.virtualProtect env base size protect).2)) (.virtualProtect base size protect) :=
  ⟨fun _ => rfl⟩

end Stages

/-! ### The stages behind the mapping -/

/-- The bytes that the file has for a section. -/
def SectionTable.fileBytes (bytes : List UInt8) (s : SectionTable) : List UInt8 :=
  readAt bytes s.pointerToRawData.toNat
    (min (s.pointerToRawData.toNat + s.sizeOfRawData.toNat) bytes.length -
      s.pointerToRawData.toNat)

/-- What is written of a section is inside an image of this size: the bytes, and the zeros behind
them. -/
structure SectionTable.Inside (bytes : List UInt8) (size : ℕ) (s : SectionTable) : Prop where
  raw : s.fileBytes bytes = [] ∨ s.virtualAddress.toNat + (s.fileBytes bytes).length ≤ size
  zeros : max s.sizeOfRawData.toNat 1 < s.virtualSize.toNat →
    s.virtualAddress.toNat + s.virtualSize.toNat ≤ size

/-- The headers, the sections and the slots of the imports are inside the image. -/
structure FileInside (bytes : List UInt8) (dll : ParsedDll) (identity : PeIdentity) : Prop where
  headers : min identity.sizeOfHeaders bytes.length ≤ identity.sizeOfImage
  sections : ∀ s ∈ dll.program.sections, s.Inside bytes identity.sizeOfImage
  slots : ∀ imports, inspectPeImportsFromParsed dll.program bytes = .ok imports →
    ∀ i ∈ imports, i.iatSlotRva + 8 ≤ identity.sizeOfImage

/-- An image is below the top, and on whole pages unless it has none. -/
structure ImagePlace (base : BitVec 64) (size : ℕ) : Prop where
  top : base.toNat + size < 2 ^ 64
  pages : 0 < size → base.toNat % 0x1000 = 0 ∧ size % 0x1000 = 0

theorem toNat_add_setWidth {base : BitVec 64} {rva : BitVec 32}
    (h : base.toNat + rva.toNat < 2 ^ 64) :
    (base + rva.setWidth 64).toNat = base.toNat + rva.toNat := by
  have hrva := rva.isLt
  rw [BitVec.toNat_add, BitVec.toNat_setWidth, Nat.mod_eq_of_lt (by omega : rva.toNat < 2 ^ 64),
    Nat.mod_eq_of_lt h]

theorem toNat_add_ofNat {base : BitVec 64} {n : ℕ} (h : base.toNat + n < 2 ^ 64) :
    (base + .ofNat 64 n).toNat = base.toNat + n := by
  rw [BitVec.toNat_add, BitVec.toNat_ofNat, Nat.mod_eq_of_lt (by omega : n < 2 ^ 64),
    Nat.mod_eq_of_lt h]

/-- The plan is about an image of the same size. -/
theorem sizeOfImage_plan {pe : PeProgram} {identity : PeIdentity} {plan : PeMapPlan}
    (hid : peIdentityFromParsed pe = .ok identity) (hplan : peMapPlanFromParsed pe = .ok plan) :
    plan.sizeOfImage = identity.sizeOfImage := by
  rw [peMapPlanFromParsed, hid] at hplan
  split at hplan
  · cases hplan
  · cases hsections : pe.sections.mapM planSection with
    | error e =>
      rw [hsections] at hplan
      cases hplan
    | ok sections =>
      rw [hsections] at hplan
      cases hplan
      rfl

/-- A part of an image that gets a protection is whole pages of the image. -/
theorem pageAlignImageRange_inside {rva len size start stop : ℕ} (hsize : size % 0x1000 = 0)
    (h : pageAlignImageRange rva len size = some (start, stop)) :
    start ≤ stop ∧ stop ≤ size := by
  rw [pageAlignImageRange] at h
  split at h
  · cases h
  · dsimp only at h
    split at h
    · cases h
    · cases h
      refine ⟨by omega, (min_le_right _ _).trans ((min_le_left _ _).trans ?_)⟩
      omega

section Behind

open Load

variable {base : BitVec 64} {size : ℕ} {bytes : List UInt8}
  {s : LoadState (Option GuestMemory) σ}

/-- A write that is inside the image. -/
theorem ConfinedAt.memWrite {msg : String} {va : BitVec 64} {data : List UInt8}
    (h : data = [] ∨ base.toNat ≤ va.toNat ∧ va.toNat + data.length ≤ base.toNat + size) :
    ConfinedAt env base.toNat (base.toNat + size)
      (Load.onEngine msg ((memoryEngine env).memWrite va data)) s :=
  .onEngine (isOp_write va.toNat data) h

theorem confinedAt_writeHeaders {n : ℕ} (h : min n bytes.length ≤ size) :
    ConfinedAt env base.toNat (base.toNat + size)
      (writeHeaders (memoryEngine env) bytes n base) s := by
  refine .ite (fun _ => .memWrite (.inr ⟨le_rfl, ?_⟩)) (.pure ())
  rw [List.length_take]
  omega

theorem confinedAt_writeDllSection {sec : SectionTable} (hp : ImagePlace base size)
    (h : sec.Inside bytes size) :
    ConfinedAt env base.toNat (base.toNat + size)
      (writeDllSection (memoryEngine env) bytes base sec) s := by
  have htop := hp.top
  refine .bind (.ite (fun _ => .memWrite ?_) (.pure ())) fun _ _ _ =>
    .ite (fun hzeros => .memWrite (.inr ?_)) (.pure ())
  · rcases h.raw with hempty | hinside
    · exact .inl hempty
    · right
      rw [toNat_add_setWidth (by omega)]
      exact ⟨Nat.le_add_right _ _, by rw [Nat.add_assoc]; exact Nat.add_le_add_left hinside _⟩
  · have hinside := h.zeros hzeros
    have hva : (base + sec.virtualAddress.setWidth 64).toNat =
      base.toNat + sec.virtualAddress.toNat := toNat_add_setWidth (by omega)
    rw [toNat_add_ofNat (by omega), hva, List.length_replicate]
    omega

theorem confinedAt_writeDllSections (hp : ImagePlace base size) (sections : List SectionTable)
    (h : ∀ sec ∈ sections, sec.Inside bytes size) (s : LoadState (Option GuestMemory) σ) :
    ConfinedAt env base.toNat (base.toNat + size)
      (writeDllSections (memoryEngine env) bytes base sections) s := by
  induction sections generalizing s with
  | nil => exact .pure ()
  | cons sec rest ih =>
    exact .bind (confinedAt_writeDllSection hp (h sec List.mem_cons_self)) fun _ s' _ =>
      ih (fun sec' hsec => h sec' (List.mem_cons_of_mem _ hsec)) s'

theorem confinedAt_relocateImage {dll : ParsedDll} {preferredBase : BitVec 64} :
    ConfinedAt env base.toNat (base.toNat + size)
      (relocateImage (memoryEngine env) bytes dll size base preferredBase) s := by
  refine .ite (fun hdelta => ?_) (.pure ())
  intro m hm hinv
  refine ConfinedAt.bind (.onEngine (isOp_read base.toNat size) trivial) (fun image s₁ hread =>
    .bind (.ofExcept _) fun image' s₂ hreloc => .memWrite (.inr ?_)) m hm hinv
  obtain ⟨hreloc, -⟩ := ofExcept_eq_ok.mp hreloc
  -- what is written back is as long as what was read, the image
  have hlen : image.length = size := (hinv.read_byte (onEngine_eq_ok hm hread)).1
  have hlen' : image'.length = image.length := by
    obtain ⟨r, hr⟩ := Option.ne_none_iff_exists'.mp
      (applyRelocations_ne_none dll.pe bytes image (base - preferredBase))
    rw [hr, Option.getD_some] at hreloc
    rw [hreloc] at hr
    exact length_applyRelocations hdelta hr
  rw [hlen', hlen]
  exact ⟨le_rfl, le_rfl⟩

theorem confinedAt_patchImports (hp : ImagePlace base size)
    (resolveImport : List Char → List Char → BitVec 64 → σ → Except String (BitVec 64) × σ)
    (imports : List PeImportSummary) (h : ∀ i ∈ imports, i.iatSlotRva + 8 ≤ size)
    (s : LoadState (Option GuestMemory) σ) :
    ConfinedAt env base.toNat (base.toNat + size)
      (patchImports (memoryEngine env) resolveImport base imports) s := by
  have htop := hp.top
  induction imports generalizing s with
  | nil => exact .pure ()
  | cons i rest ih =>
    refine .bind (.of_engine rfl) fun target s₁ _ => .bind (.memWrite (.inr ?_)) fun _ s₂ _ =>
      ih (fun i' hi => h i' (List.mem_cons_of_mem _ hi)) s₂
    have hslot := h i List.mem_cons_self
    rw [toNat_add_ofNat (by omega), length_toLe]
    omega

theorem confinedAt_protectRange (hp : ImagePlace base size) (hpos : 0 < size) {msg : String}
    {rva len protect : ℕ} :
    ConfinedAt env base.toNat (base.toNat + size)
      (protectRange (memoryEngine env) msg base (pageAlignImageRange rva len size) protect) s := by
  cases hrange : pageAlignImageRange rva len size with
  | none => exact .pure ()
  | some range =>
    refine .ite (fun _ => .bind (.onEngine (isOp_virtualProtect _ _ _) ?_) fun _ _ _ => .pure ())
      (.pure ())
    have htop := hp.top
    obtain ⟨hbase, hsize⟩ := hp.pages hpos
    obtain ⟨hle, hstop⟩ := pageAlignImageRange_inside hsize hrange
    have hva : (BitVec.ofNat 64 (satAdd base.toNat range.1)).toNat = base.toNat + range.1 := by
      rw [satAdd_of_lt (by omega), BitVec.toNat_ofNat, Nat.mod_eq_of_lt (by omega)]
    rw [hva]
    exact ⟨⟨hbase, by omega⟩, by omega, by omega⟩

theorem confinedAt_protectSections (hp : ImagePlace base size) (hpos : 0 < size) {plan : PeMapPlan}
    (hplan : plan.sizeOfImage = size) (sections : List PeSectionMap)
    (s : LoadState (Option GuestMemory) σ) :
    ConfinedAt env base.toNat (base.toNat + size)
      (protectSections (memoryEngine env) plan base sections) s := by
  induction sections generalizing s with
  | nil => exact .pure ()
  | cons sec rest ih =>
    rw [protectSections, hplan]
    exact .bind (confinedAt_protectRange hp hpos) fun _ s' _ => ih s'

theorem confinedAt_applyPeSectionProtects (hp : ImagePlace base size) {plan : PeMapPlan}
    (hplan : plan.sizeOfImage = size) :
    ConfinedAt env base.toNat (base.toNat + size)
      (applyPeSectionProtects (memoryEngine env) plan base) s := by
  rw [applyPeSectionProtects, hplan]
  refine .ite (fun hsize => ?_) (.pure ())
  have hpos := Nat.pos_of_ne_zero hsize
  obtain ⟨hbase, hlen⟩ := hp.pages hpos
  refine .bind (.onEngine (isOp_virtualProtect _ _ _) ⟨⟨hbase, by omega⟩, le_rfl, le_rfl⟩)
    fun _ _ _ => .bind (confinedAt_protectRange hp hpos) fun _ s' _ =>
      confinedAt_protectSections hp hpos hplan _ s'

/-- **The loader, behind the mapping**, changes nothing outside the image. -/
theorem confinedAt_fillImage {req : LoadRequest} {dll : ParsedDll} {identity : PeIdentity}
    {handle : BitVec 64}
    (resolveImport : List Char → List Char → BitVec 64 → σ → Except String (BitVec 64) × σ)
    (hid : peIdentityFromParsed dll.program = .ok identity)
    (hp : ImagePlace base identity.sizeOfImage) (h : FileInside bytes dll identity) :
    ConfinedAt env base.toNat (base.toNat + identity.sizeOfImage)
      (fillImage (memoryEngine env) resolveImport req bytes dll identity handle base) s := by
  refine .bind (.ofExcept _) fun plan _ hplan =>
    .bind (confinedAt_writeHeaders h.headers) fun _ _ _ =>
    .bind (confinedAt_writeDllSections hp _ h.sections _) fun _ _ _ =>
    .bind confinedAt_relocateImage fun _ _ _ =>
    .bind (.ofExcept _) fun imports _ himports =>
    .bind (confinedAt_patchImports hp resolveImport imports ?_ _) fun _ _ _ =>
    .bind (.ofExcept _) fun exports _ _ =>
    .bind (.of_engine rfl) fun _ _ _ =>
    .bind (.context _ (confinedAt_applyPeSectionProtects hp ?_)) fun _ _ _ => .pure _
  · exact h.slots imports (withContext_eq_ok.mp (ofExcept_eq_ok.mp himports).1)
  · exact sizeOfImage_plan hid (withContext_eq_ok.mp (ofExcept_eq_ok.mp hplan).1)

end Behind

/-! ### The mapping -/

/-- No page of the range is in use. -/
def RangeFree (m : GuestMemory) (lo size : ℕ) : Prop :=
  ∀ x, Between lo (lo + size) x → m.pages.table (x / 0x1000) = none

/-- Every page of the range is in use. -/
def RangeUsed (m : GuestMemory) (lo size : ℕ) : Prop :=
  ∀ x, Between lo (lo + size) x → m.pages.table (x / 0x1000) ≠ none

section Map

variable {m : GuestMemory} {base : BitVec 64} {size perms : ℕ}

/-- **Memory that has been mapped.** -/
theorem map_of_ok (hinv : Inv env m) (h : (m.map env base.toNat size perms).1 = .ok ()) :
    ImagePlace base size ∧ RangeUsed (m.map env base.toNat size perms).2 base.toNat size ∧
      Beside env base.toNat (base.toNat + size) m (m.map env base.toNat size perms).2 := by
  have hcall := (isOp_map base.toNat size perms).change hinv (by
    rw [h]
    intro hcrash
    cases hcrash)
  rw [h] at hcall
  refine ⟨?_, ?_, hcall.beside hinv fun _ => .inr ⟨le_rfl, le_rfl⟩⟩
  · cases hcall with
    | same hq _ => exact absurd (hq rfl) id
    | bumped _ => exact ⟨base.isLt, fun h => absurd h (lt_irrefl 0)⟩
    | mapped hm => exact ⟨hm.range.top, fun _ => ⟨hm.range.base, hm.range.len⟩⟩
  · intro x hx
    cases hcall with
    | same hq _ => exact absurd (hq rfl) id
    | bumped _ => exact absurd hx.1 (Nat.not_le.mpr hx.2)
    | mapped hm =>
      have hin : base.toNat ≤ x ∧ x < base.toNat + size := hx
      rw [hm.table, set_range_apply hm.range, if_pos hin]
      exact Option.some_ne_none _

/-- Nothing has been mapped. -/
theorem map_of_error {e : CpuError} {lo hi : ℕ} (hinv : Inv env m)
    (h : (m.map env base.toNat size perms).1 = .error e) :
    Beside env lo hi m (m.map env base.toNat size perms).2 := by
  have hcall := (isOp_map base.toNat size perms).change hinv (by
    rw [h]
    intro hcrash
    cases hcrash)
  rw [h] at hcall
  exact hcall.beside hinv fun hok => by cases hok

theorem memMap_of_ok (h : (m.map env base.toNat size perms).1 = .ok ()) :
    (memoryEngine env).memMap base size perms (some m) =
      (.ok (), some (m.map env base.toNat size perms).2) := by
  show ofOutcome (.ofExcept _, _) = _
  rw [h]
  rfl

theorem memMap_of_error {e : CpuError} (h : (m.map env base.toNat size perms).1 = .error e) :
    (memoryEngine env).memMap base size perms (some m) =
      (.error e.text, some (m.map env base.toNat size perms).2) := by
  show ofOutcome (.ofExcept _, _) = _
  rw [h]
  rfl

end Map

/-- The page of the handle, which an image is mapped at if it cannot be where it wants to be. -/
def alternativeBase (handle : BitVec 64) : BitVec 64 := handle &&& ~~~0xfff

/-- Where an image comes to be mapped, no page is in use. -/
structure PlaceFree (env : HostEnv) (m : GuestMemory) (preferredBase handle : BitVec 64)
    (size : ℕ) : Prop where
  preferred : (m.map env preferredBase.toNat size Perm.all).1 = .ok () →
    RangeFree m preferredBase.toNat size
  alternative : ∀ e, (m.map env preferredBase.toNat size Perm.all).1 = .error e →
    ((m.map env preferredBase.toNat size Perm.all).2.map env (alternativeBase handle).toNat size
      Perm.all).1 = .ok () → RangeFree m (alternativeBase handle).toNat size

/-- An image has been mapped where no page was in use, and nothing else has changed. -/
structure MappedApart (env : HostEnv) (m m' : GuestMemory) (base : BitVec 64) (size : ℕ) :
    Prop where
  place : ImagePlace base size
  free : RangeFree m base.toNat size
  used : RangeUsed m' base.toNat size
  beside : Beside env base.toNat (base.toNat + size) m m'

/-- **The mapping of an image**, if the place is free. -/
theorem mapDllImage_apart {m : GuestMemory} {preferredBase handle : BitVec 64} {size : ℕ}
    {s s' : LoadState (Option GuestMemory) σ} {x : Except String (BitVec 64)}
    (hm : s.engine = some m) (hinv : Inv env m) (hfree : PlaceFree env m preferredBase handle size)
    (h : mapDllImage (memoryEngine env) preferredBase handle size s = (x, s')) :
    ∃ m', s'.engine = some m' ∧
      ((∃ e, x = .error e) ∧ (∀ lo hi, Beside env lo hi m m') ∨
        ∃ base, x = .ok base ∧ MappedApart env m m' base size) := by
  rw [mapDllImage, hm] at h
  cases hfirst : (m.map env preferredBase.toNat size Perm.all).1 with
  | ok u =>
    rw [memMap_of_ok hfirst] at h
    cases h
    obtain ⟨hplace, hused, hbeside⟩ := map_of_ok hinv hfirst
    exact ⟨_, rfl, .inr ⟨_, rfl, hplace, hfree.preferred hfirst, hused, hbeside⟩⟩
  | error e =>
    rw [memMap_of_error hfirst] at h
    -- what the first attempt leaves behind is nothing that is in use
    have hsame : ∀ lo hi, Beside env lo hi m (m.map env preferredBase.toNat size Perm.all).2 :=
      fun lo hi => map_of_error hinv hfirst
    have hinv' := (hsame 0 0).inv
    dsimp only at h
    cases hsecond : ((m.map env preferredBase.toNat size Perm.all).2.map env
        (alternativeBase handle).toNat size Perm.all).1 with
    | ok u =>
      rw [← alternativeBase, memMap_of_ok hsecond] at h
      cases h
      obtain ⟨hplace, hused, hbeside⟩ := map_of_ok hinv' hsecond
      exact ⟨_, rfl, .inr ⟨_, rfl, hplace, hfree.alternative e hfirst hsecond, hused,
        (hsame _ _).trans hbeside⟩⟩
    | error e' =>
      rw [← alternativeBase, memMap_of_error hsecond] at h
      cases h
      exact ⟨_, rfl, .inl ⟨⟨_, rfl⟩, fun lo hi => (hsame lo hi).trans (map_of_error hinv' hsecond)⟩⟩

end Wie
