import Wie.X86.Decode

/-!
# Listings

A listing is code line by line: the bytes of each instruction with what they mean. What comes after an
instruction does not change it, so a line is checked by itself, and then found in the code by its
offset.

## Main definitions

* `X86.Stable` — decoders that do not mind what comes after
* `X86.Line`, `X86.assemble` — lines, and the code of a listing
* `X86.lineAt` — the line at an offset

## Main results

* `X86.stable_decode` — `decode` is one of them
* `X86.decode_assemble` — the instruction at an offset is the one of the listing
-/

namespace Wie

namespace X86

/-! ### What comes after -/

/-- More bytes at the end do not change a result. -/
def Stable {α : Type} (f : List UInt8 → Option α) : Prop :=
  ∀ ⦃bs r⦄, f bs = some r → ∀ ys, f (bs ++ ys) = some r

namespace Stable

variable {α β : Type} {f g : List UInt8 → Option α}

theorem const (o : Option α) : Stable fun _ => o := fun _ _ h _ => h

theorem map (h : Stable f) (k : α → β) : Stable fun bs => (f bs).map k := by
  intro bs r hr ys
  obtain ⟨a, ha, rfl⟩ := Option.map_eq_some_iff.mp hr
  change (f (bs ++ ys)).map k = _
  rw [h ha ys]
  rfl

theorem bind (o : Option β) {f : β → List UInt8 → Option α} (h : ∀ b, Stable (f b)) :
    Stable fun bs => o.bind fun b => f b bs := by
  intro bs r hr ys
  obtain ⟨b, rfl, hb⟩ := Option.bind_eq_some_iff.mp hr
  exact h b hb ys

theorem ite {p : Prop} [Decidable p] (h : Stable f) (h' : Stable g) :
    Stable fun bs => if p then f bs else g bs := by
  intro bs r hr ys
  by_cases hp : p
  · exact (if_pos hp).trans (h ((if_pos hp).symm.trans hr) ys)
  · exact (if_neg hp).trans (h' ((if_neg hp).symm.trans hr) ys)

/-- The first byte, and then the others. -/
theorem head {f : UInt8 → List UInt8 → Option α} (h : ∀ b, Stable (f b)) :
    Stable fun bs => bs.head?.bind fun b => f b bs.tail := by
  intro bs r hr ys
  cases bs with
  | nil => cases hr
  | cons b bs => exact h b hr ys

end Stable

theorem stable_imm (n : ℕ) : Stable (imm n) := by
  intro bs r h ys
  rw [imm] at h ⊢
  split at h
  · rename_i hle
    rw [if_pos (by rw [List.length_append]; omega), List.take_append_of_le_length hle]
    exact h
  · cases h

/-- The bytes of a ModRM operand are there. -/
theorem modRM_append {rex : Rex} {bs : List UInt8} {reg : Fin 16} {rm : Operand} {n : ℕ}
    (h : modRM rex bs = some (reg, rm, n)) :
    n ≤ bs.length ∧ ∀ ys, modRM rex (bs ++ ys) = some (reg, rm, n) := by
  rcases bs with _ | ⟨m, _ | ⟨b, rest⟩⟩
  · cases h
  · -- ModRM alone
    simp only [modRM, List.cons_append, List.nil_append, List.head?_nil] at h ⊢
    split_ifs at h ⊢ <;> simp_all
  · -- a displacement or a SIB byte may follow, and a displacement after that
    simp only [modRM, List.cons_append, List.head?_cons, List.tail_cons, Option.bind_some] at h ⊢
    generalize sib rex b.toNat = place at h ⊢
    cases place with
    | none =>
      split_ifs at h ⊢ <;> simp_all
      omega
    | some p =>
      cases rest with
      | nil => split_ifs at h ⊢ <;> simp_all
      | cons d rest => split_ifs at h ⊢ <;> simp_all <;> omega

theorem stable_withModRM (rex : Rex) {f : Fin 16 → Operand → List UInt8 → Option (Instr × ℕ)}
    (hf : ∀ reg rm, Stable (f reg rm)) : Stable fun bs => withModRM rex bs f := by
  intro bs r h ys
  obtain ⟨⟨reg, rm, n⟩, hm, hr⟩ := Option.bind_eq_some_iff.mp h
  obtain ⟨⟨i, k⟩, hi, rfl⟩ := Option.map_eq_some_iff.mp hr
  obtain ⟨hle, happ⟩ := modRM_append hm
  have hdrop : f reg rm ((bs ++ ys).drop n) = some (i, k) := by
    rw [List.drop_append_of_le_length hle]
    exact hf reg rm hi ys
  change (modRM rex (bs ++ ys)).bind _ = _
  rw [happ ys, Option.bind_some]
  change (f reg rm ((bs ++ ys).drop n)).map _ = _
  rw [hdrop]
  rfl

theorem stable_decode0F (rex : Rex) : Stable (decode0F rex) :=
  .head fun _ => .ite ((stable_withModRM rex fun _ _ => .const _).map _)
    (.ite (.bind _ fun _ => (stable_imm 4).map _) (.const _))

theorem stable_decodeOp (opsize rep : Bool) (rex : Rex) (op : UInt8) :
    Stable (decodeOp opsize rep rex op) := by
  refine .ite (stable_decode0F rex) ?_
  refine .ite (stable_withModRM rex fun _ _ => .const _) ?_
  refine .ite (stable_withModRM rex fun _ _ => .const _) ?_
  refine .ite (.const _) (.ite (.const _) ?_)
  refine .ite (.bind _ fun _ => (stable_imm 1).map _) ?_
  refine .ite (stable_withModRM rex fun _ _ => .ite ((stable_imm 4).map _) (.const _)) ?_
  refine .ite (stable_withModRM rex fun _ _ => .ite ((stable_imm 1).map _) (.const _)) ?_
  iterate 4 refine .ite (stable_withModRM rex fun _ _ => .const _) ?_
  refine .ite (stable_withModRM rex fun _ rm => ?_) ?_
  · cases rm <;> exact .const _
  refine .ite (.const _) (.ite (.const _) ?_)
  refine .ite (.ite ((stable_imm 1).map _) (.const _)) ?_
  refine .ite ((stable_imm _).map _) (.ite (.const _) ?_)
  refine .ite ((stable_imm 4).map _) (.ite ((stable_imm 1).map _) ?_)
  refine .ite (stable_withModRM rex fun _ _ => .ite ((stable_imm 1).map _) (.const _)) ?_
  exact .ite (.const _) (.ite (stable_withModRM rex fun _ _ => .const _) (.const _))

theorem stable_decodeRex (opsize rep : Bool) : Stable (decodeRex opsize rep) :=
  .head fun b => .ite (.head fun op => (stable_decodeOp opsize rep _ op).map _)
    ((stable_decodeOp opsize rep .none b).map _)

/-- **What comes after an instruction does not change it.** -/
theorem stable_decode : Stable decode := by
  intro bs r h ys
  cases bs with
  | nil => cases h
  | cons b bs =>
    have hrest : Stable fun bs => if b = 0x66 then
        (decodeRex true false bs).map fun v => (v.1, v.2 + 1)
      else if b = 0xf3 then (decodeRex false true bs).map fun v => (v.1, v.2 + 1)
      else decodeRex false false (b :: bs) :=
      .ite ((stable_decodeRex true false).map _) (.ite ((stable_decodeRex false true).map _)
        fun _ _ h ys => stable_decodeRex false false h ys)
    exact hrest h ys

/-! ### Lines -/

/-- An instruction and its encoding. -/
structure Line where
  /-- The encoding. -/
  bytes : List UInt8
  /-- The instruction. -/
  instr : Instr

/-- The bytes mean the instruction. -/
def Line.Ok (l : Line) : Prop := decode l.bytes = some (l.instr, l.bytes.length)

instance (l : Line) : Decidable l.Ok := inferInstanceAs (Decidable (_ = _))

/-- The code of a listing. -/
def assemble (ls : List Line) : List UInt8 := ls.flatMap Line.bytes

/-- The line at an offset of the code. -/
def lineAt : List Line → ℕ → Option Line
  | [], _ => none
  | l :: ls, k => if k = 0 then some l else if l.bytes.length ≤ k then
      lineAt ls (k - l.bytes.length) else none

variable {ls : List Line} {l : Line} {k : ℕ}

theorem assemble_cons (l : Line) (ls : List Line) :
    assemble (l :: ls) = l.bytes ++ assemble ls := List.flatMap_cons

/-- The code from an offset on begins with the line there. -/
theorem drop_assemble (h : lineAt ls k = some l) :
    l ∈ ls ∧ ∃ rest, (assemble ls).drop k = l.bytes ++ rest := by
  induction ls generalizing k with
  | nil => cases h
  | cons l' ls ih =>
    rw [lineAt] at h
    split_ifs at h with hk hlen
    · cases h
      subst hk
      exact ⟨.head _, assemble ls, by rw [assemble_cons, List.drop_zero]⟩
    · obtain ⟨hmem, rest, hrest⟩ := ih h
      refine ⟨.tail _ hmem, rest, ?_⟩
      rw [assemble_cons, List.drop_append, List.drop_eq_nil_of_le hlen, List.nil_append, hrest]

/-- **The instruction at an offset is the one of the listing.** -/
theorem decode_assemble (hok : ∀ l ∈ ls, l.Ok) (h : lineAt ls k = some l) :
    decode ((assemble ls).drop k) = some (l.instr, l.bytes.length) := by
  obtain ⟨hmem, rest, hrest⟩ := drop_assemble h
  rw [hrest]
  exact stable_decode (hok l hmem) rest

end X86

end Wie
