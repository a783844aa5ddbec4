import Mathlib.Data.List.Range
import Wie.Lib.Bytes

/-!
# Flat memories with permissions

One byte at each address, and for each address whether it may be read and whether it may be written.
An access to a range is all or nothing. Numbers are stored lowest byte first.

`get` and `set` do the work of an access that is granted; a load or a store is that work behind the
test. Facts about what a run leaves in memory are facts about `get` and `set`.

## Main definitions

* `Flat` — the memories
* `Flat.load`, `Flat.store` — accesses to bytes
* `Flat.loadLe`, `Flat.storeLe` — accesses to numbers
* `Flat.storeAll` — several stores, up to the first that is denied
* `Flat.Rw` — a range that may be read and written
* `Flat.AgreeOff` — memories that differ in a region only

## Main results

* `Flat.get_set`, `Flat.get_set_of_disjoint` — read after write
* `Flat.storeAll_of_rw` — stores to a range that may be written are made
-/

namespace Wie

/-- A memory. -/
structure Flat where
  /-- The content. -/
  byte : ℕ → UInt8
  /-- What may be read. -/
  readable : ℕ → Bool
  /-- What may be written. -/
  writable : ℕ → Bool
  /-- What may be written may be read. -/
  readable_of_writable : ∀ x, writable x = true → readable x = true

namespace Flat

variable {m m' : Flat} {a n b k v : ℕ}

/-! ### Accesses -/

/-- Zeros, open to every access. -/
def blank : Flat := ⟨fun _ => 0, fun _ => true, fun _ => true, fun _ _ => rfl⟩

/-- The bytes of a range. -/
def bytes (m : Flat) (a n : ℕ) : List UInt8 := (List.range n).map fun i => m.byte (a + i)

/-- Put bytes at `a`. -/
def put (m : Flat) (a : ℕ) (bs : List UInt8) : Flat :=
  { m with byte := fun x => if a ≤ x ∧ x < a + bs.length then bs.getD (x - a) 0 else m.byte x }

/-- Read a range, if all of it may be read. -/
def load (m : Flat) (a n : ℕ) : Option (List UInt8) :=
  if (List.range n).all fun i => m.readable (a + i) then some (m.bytes a n) else none

/-- Write a range, if all of it may be written. -/
def store (m : Flat) (a : ℕ) (bs : List UInt8) : Option Flat :=
  if (List.range bs.length).all fun i => m.writable (a + i) then some (m.put a bs) else none

/-- The number of `n` bytes at `a`. -/
def get (m : Flat) (a n : ℕ) : ℕ := fromLe (m.bytes a n)

/-- Put a number of `n` bytes at `a`. -/
def set (m : Flat) (a n v : ℕ) : Flat := m.put a (toLe n v)

/-- Read a number. -/
def loadLe (m : Flat) (a n : ℕ) : Option ℕ := (m.load a n).map fromLe

/-- Write a number. -/
def storeLe (m : Flat) (a n v : ℕ) : Option Flat := m.store a (toLe n v)

/-- Write numbers `(address, size, value)` one after the other, up to the first that is denied. -/
def storeAll : List (ℕ × ℕ × ℕ) → Flat → Except Unit Unit × Flat
  | [], m => (.ok (), m)
  | (a, n, v) :: ws, m =>
    match m.storeLe a n v with
    | some m' => storeAll ws m'
    | none => (.error (), m)

/-- The same writes without the test. -/
def setAll (ws : List (ℕ × ℕ × ℕ)) (m : Flat) : Flat :=
  ws.foldl (fun m w => m.set w.1 w.2.1 w.2.2) m

/-! ### Read after write -/

@[simp] theorem length_bytes (m : Flat) (a n : ℕ) : (m.bytes a n).length = n := by simp [bytes]

@[simp] theorem readable_put (m : Flat) (a : ℕ) (bs : List UInt8) :
    (m.put a bs).readable = m.readable := rfl

@[simp] theorem writable_put (m : Flat) (a : ℕ) (bs : List UInt8) :
    (m.put a bs).writable = m.writable := rfl

@[simp] theorem readable_set (m : Flat) (a n v : ℕ) : (m.set a n v).readable = m.readable := rfl

@[simp] theorem writable_set (m : Flat) (a n v : ℕ) : (m.set a n v).writable = m.writable := rfl

theorem byte_put_of_notMem {bs : List UInt8} {x : ℕ} (h : x < a ∨ a + bs.length ≤ x) :
    (m.put a bs).byte x = m.byte x := if_neg (by omega)

theorem byte_put {bs : List UInt8} {i : ℕ} (h : i < bs.length) :
    (m.put a bs).byte (a + i) = bs[i] := by
  show (if a ≤ a + i ∧ a + i < a + bs.length then bs.getD (a + i - a) 0 else m.byte (a + i)) = _
  rw [if_pos ⟨by omega, by omega⟩, Nat.add_sub_cancel_left]
  simp [h]

theorem byte_set_of_notMem {x : ℕ} (h : x < a ∨ a + n ≤ x) : (m.set a n v).byte x = m.byte x :=
  byte_put_of_notMem (by rwa [length_toLe])

theorem bytes_congr (h : ∀ x, a ≤ x → x < a + n → m'.byte x = m.byte x) :
    m'.bytes a n = m.bytes a n :=
  List.map_congr_left fun i hi => h _ (Nat.le_add_right a i) (by
    have := List.mem_range.mp hi
    omega)

theorem get_congr (h : ∀ x, a ≤ x → x < a + n → m'.byte x = m.byte x) : m'.get a n = m.get a n := by
  rw [get, bytes_congr h, get]

theorem bytes_put (m : Flat) (a : ℕ) (bs : List UInt8) : (m.put a bs).bytes a bs.length = bs := by
  refine List.ext_getElem (by simp) fun i h1 h2 => ?_
  simp only [bytes, List.getElem_map, List.getElem_range]
  exact byte_put h2

theorem bytes_add (m : Flat) (a n k : ℕ) :
    m.bytes a (n + k) = m.bytes a n ++ m.bytes (a + n) k := by
  rw [bytes, List.range_add, List.map_append, List.map_map, bytes, bytes]
  refine congrArg _ (List.map_congr_left fun i _ => ?_)
  rw [Function.comp_apply, Nat.add_assoc]

/-- Bytes put one after the other. -/
theorem put_append (m : Flat) (a : ℕ) (xs ys : List UInt8) :
    (m.put a xs).put (a + xs.length) ys = m.put a (xs ++ ys) := by
  have hbyte : ((m.put a xs).put (a + xs.length) ys).byte = (m.put a (xs ++ ys)).byte := by
    funext x
    by_cases h1 : a ≤ x ∧ x < a + xs.length
    · have hin : (m.put a (xs ++ ys)).byte x = (xs ++ ys).getD (x - a) 0 :=
        if_pos ⟨h1.1, by rw [List.length_append]; omega⟩
      rw [byte_put_of_notMem (.inl h1.2), hin]
      show (if _ then _ else _) = _
      rw [if_pos h1, List.getD_eq_getElem?_getD, List.getD_eq_getElem?_getD,
        List.getElem?_append_left (by omega)]
    · by_cases h2 : a + xs.length ≤ x ∧ x < a + xs.length + ys.length
      · have hin : (m.put a (xs ++ ys)).byte x = (xs ++ ys).getD (x - a) 0 :=
          if_pos ⟨by omega, by rw [List.length_append]; omega⟩
        rw [hin]
        show (if _ then _ else _) = _
        rw [if_pos h2, List.getD_eq_getElem?_getD, List.getD_eq_getElem?_getD,
          List.getElem?_append_right (by omega), Nat.sub_sub]
      · rw [byte_put_of_notMem (by omega), byte_put_of_notMem (by omega), byte_put_of_notMem]
        rw [List.length_append]
        omega
  rw [put, put, put]
  exact congrArg (fun b => Flat.mk b _ _ _) hbyte

@[simp] theorem put_nil (m : Flat) (a : ℕ) : m.put a [] = m := by
  have hbyte : (m.put a []).byte = m.byte := by
    funext x
    exact byte_put_of_notMem (by rw [List.length_nil]; omega)
  rw [put]
  exact congrArg (fun b => Flat.mk b _ _ _) hbyte

/-- **A number comes back**, up to the bytes left out. -/
theorem get_set (m : Flat) (a n v : ℕ) : (m.set a n v).get a n = v % 256 ^ n := by
  have h := bytes_put m a (toLe n v)
  rw [length_toLe] at h
  rw [get, set, h, fromLe_toLe]

theorem get_set_of_lt (h : v < 256 ^ n) : (m.set a n v).get a n = v := by
  rw [get_set, Nat.mod_eq_of_lt h]

/-- Zeroed bytes hold the number zero. -/
theorem get_put_zeros (h1 : b ≤ a) (h2 : a + n ≤ b + k) :
    (m.put b (List.replicate k 0)).get a n = 0 := by
  have hbytes : (m.put b (List.replicate k 0)).bytes a n = List.replicate n 0 := by
    refine List.eq_replicate_iff.mpr ⟨length_bytes .., fun x hx => ?_⟩
    obtain ⟨i, hi, rfl⟩ := List.mem_map.mp hx
    have hi := List.mem_range.mp hi
    have hlt : a + i - b < (List.replicate k (0 : UInt8)).length := by
      rw [List.length_replicate]
      omega
    have := byte_put (m := m) (a := b) hlt
    rwa [show b + (a + i - b) = a + i by omega, List.getElem_replicate] at this
  rw [get, hbytes, ← toLe_zero, fromLe_toLe, Nat.zero_mod]

/-- **A write beside a number leaves it alone.** -/
theorem get_set_of_disjoint (h : a + n ≤ b ∨ b + k ≤ a) : (m.set b k v).get a n = m.get a n :=
  get_congr fun _ _ _ => byte_set_of_notMem (by omega)

theorem get_lt (m : Flat) (a n : ℕ) : m.get a n < 256 ^ n := by
  have := fromLe_lt (m.bytes a n)
  rwa [length_bytes] at this

/-- The lowest bytes of a number. -/
theorem get_add_mod (m : Flat) (a n k : ℕ) : m.get a (n + k) % 256 ^ n = m.get a n := by
  have hlt := m.get_lt a n
  have hlen : (m.bytes a n).length = n := length_bytes ..
  rw [get, bytes_add, fromLe_append, hlen, Nat.add_mul_mod_self_left]
  exact Nat.mod_eq_of_lt hlt

/-- A bit of a byte. -/
def bit (m : Flat) (a j : ℕ) : Bool := (m.byte a).toNat.testBit j

theorem ext_bit (hr : m.readable = m'.readable) (hw : m.writable = m'.writable)
    (hb : ∀ a, ∀ j < 8, m.bit a j = m'.bit a j) : m = m' := by
  have hbyte : m.byte = m'.byte := by
    funext x
    refine UInt8.toNat_inj.mp (Nat.eq_of_testBit_eq fun j => ?_)
    by_cases hj : j < 8
    · exact hb x j hj
    · have hlt (y : UInt8) : y.toNat < 2 ^ j :=
        y.toNat_lt.trans_le (Nat.pow_le_pow_right (by decide) (not_lt.mp hj))
      rw [Nat.testBit_lt_two_pow (hlt _), Nat.testBit_lt_two_pow (hlt _)]
  cases m with
  | mk byte readable writable h =>
    cases m' with
    | mk byte' readable' writable' h' =>
      obtain rfl : readable = readable' := hr
      obtain rfl : writable = writable' := hw
      obtain rfl : byte = byte' := hbyte
      rfl

theorem get_one (m : Flat) (a : ℕ) : m.get a 1 = (m.byte a).toNat := by
  show fromLe [m.byte (a + 0)] = _
  rw [fromLe_cons, fromLe_nil, Nat.mul_zero, Nat.add_zero, Nat.add_zero]

/-- The bits of a byte that is put. -/
theorem bit_set_one (m : Flat) (a v : ℕ) {x j : ℕ} (hj : j < 8) :
    (m.set a 1 v).bit x j = if x = a then v.testBit j else m.bit x j := by
  by_cases hx : x = a
  · subst hx
    have hlen : 0 < (toLe 1 v).length := by
      rw [length_toLe]
      decide
    have hbyte : (m.set x 1 v).byte x = UInt8.ofNat v := byte_put hlen
    rw [if_pos rfl, bit, hbyte, UInt8.toNat_ofNat']
    exact (Nat.testBit_mod_two_pow v 8 j).trans (by rw [decide_eq_true hj, Bool.true_and])
  · rw [if_neg hx, bit, byte_set_of_notMem (by omega), bit]

/-! ### Ranges that may be read and written -/

/-- All of `[a, a + n)` may be written, and hence read. -/
def Rw (m : Flat) (a n : ℕ) : Prop := ∀ x, a ≤ x → x < a + n → m.writable x = true

theorem Rw.mono (h : m.Rw a n) (h1 : a ≤ b) (h2 : b + k ≤ a + n) : m.Rw b k :=
  fun x hx hx' => h x (by omega) (by omega)

theorem Rw.congr (h : m.Rw a n) (hw : m'.writable = m.writable) : m'.Rw a n := by
  intro x h1 h2
  rw [hw]
  exact h x h1 h2

theorem load_eq (h : ∀ x, a ≤ x → x < a + n → m.readable x = true) :
    m.load a n = some (m.bytes a n) := by
  rw [load, if_pos]
  rw [List.all_eq_true]
  intro i hi
  have := List.mem_range.mp hi
  exact h _ (by omega) (by omega)

theorem length_of_load {bs : List UInt8} (h : m.load a n = some bs) : bs.length = n := by
  rw [load] at h
  split at h
  · rw [← Option.some.inj h, length_bytes]
  · cases h

/-- What is read may be read. -/
theorem readable_of_loadLe {v : ℕ} (h : m.loadLe a n = some v) {x : ℕ} (h1 : a ≤ x)
    (h2 : x < a + n) : m.readable x = true := by
  obtain ⟨bs, hl, -⟩ := Option.map_eq_some_iff.mp h
  rw [load] at hl
  split at hl
  · rename_i hall
    have := List.all_eq_true.mp hall (x - a) (List.mem_range.mpr (by omega))
    rwa [Nat.add_sub_of_le h1] at this
  · cases hl

theorem loadLe_eq (h : ∀ x, a ≤ x → x < a + n → m.readable x = true) :
    m.loadLe a n = some (m.get a n) := by
  rw [loadLe, load_eq h]
  rfl

theorem Rw.loadLe (h : m.Rw a n) : m.loadLe a n = some (m.get a n) :=
  loadLe_eq fun x h1 h2 => m.readable_of_writable x (h x h1 h2)

theorem Rw.store (bs : List UInt8) (h : m.Rw a bs.length) : m.store a bs = some (m.put a bs) := by
  rw [Flat.store, if_pos]
  rw [List.all_eq_true]
  intro i hi
  have := List.mem_range.mp hi
  exact h _ (by omega) (by omega)

theorem Rw.storeLe (h : m.Rw a n) (v : ℕ) : m.storeLe a n v = some (m.set a n v) :=
  Rw.store _ (by rwa [length_toLe])

theorem store_eq_some {bs : List UInt8} (h : m.store a bs = some m') :
    m' = m.put a bs ∧ m.Rw a bs.length := by
  rw [store] at h
  split at h
  · rename_i hall
    refine ⟨(Option.some.inj h).symm, fun x h1 h2 => ?_⟩
    have := List.all_eq_true.mp hall (x - a) (List.mem_range.mpr (by omega))
    rwa [Nat.add_sub_of_le h1] at this
  · cases h

theorem store_eq_none {bs : List UInt8} (h : m.store a bs = none) : ¬ m.Rw a bs.length := by
  intro hrw
  rw [hrw.store] at h
  cases h

/-- A store in two parts. -/
theorem store_append (m : Flat) (a : ℕ) (xs ys : List UInt8) :
    m.store a (xs ++ ys) = (m.store a xs).bind fun m => m.store (a + xs.length) ys := by
  cases hxs : m.store a xs with
  | none =>
    cases hall : m.store a (xs ++ ys) with
    | none => rfl
    | some m' =>
      refine absurd ?_ (store_eq_none hxs)
      exact (store_eq_some hall).2.mono le_rfl (by rw [List.length_append]; omega)
  | some m' =>
    obtain ⟨rfl, hrw⟩ := store_eq_some hxs
    rw [Option.bind_some]
    cases hys : (m.put a xs).store (a + xs.length) ys with
    | none =>
      cases hall : m.store a (xs ++ ys) with
      | none => rfl
      | some m' =>
        refine absurd ?_ (store_eq_none hys)
        exact ((store_eq_some hall).2.mono (by omega) (by rw [List.length_append]; omega)).congr rfl
    | some m' =>
      obtain ⟨rfl, hrw'⟩ := store_eq_some hys
      rw [put_append, Rw.store]
      intro x h1 h2
      rw [List.length_append] at h2
      by_cases hx : x < a + xs.length
      · exact hrw x h1 hx
      · exact hrw' x (by omega) (by omega)

theorem storeLe_eq_some (h : m.storeLe a n v = some m') : m' = m.set a n v ∧ m.Rw a n := by
  obtain ⟨h1, h2⟩ := store_eq_some h
  exact ⟨h1, by rwa [length_toLe] at h2⟩

/-- All of `[a, a + n)` may be read. -/
def Rd (f : Flat) (a n : ℕ) : Prop := ∀ x, a ≤ x → x < a + n → f.readable x = true

theorem Rw.rd (h : m.Rw a k) : m.Rd a k := fun x h1 h2 =>
  m.readable_of_writable x (h x h1 h2)

theorem rd_append : m.Rd a (n + k) ↔ m.Rd a n ∧ m.Rd (a + n) k := by
  constructor
  · intro h
    exact ⟨fun x h1 h2 => h x h1 (by omega), fun x h1 h2 => h x (by omega) (by omega)⟩
  · rintro ⟨h, h'⟩ x h1 h2
    by_cases hx : x < a + n
    · exact h x h1 hx
    · exact h' x (by omega) (by omega)

theorem rw_append : m.Rw a (n + k) ↔ m.Rw a n ∧ m.Rw (a + n) k := by
  constructor
  · intro h
    exact ⟨fun x h1 h2 => h x h1 (by omega), fun x h1 h2 => h x (by omega) (by omega)⟩
  · rintro ⟨h, h'⟩ x h1 h2
    by_cases hx : x < a + n
    · exact h x h1 hx
    · exact h' x (by omega) (by omega)

theorem store_eq_some_iff {bs : List UInt8} (hn : bs.length = n) :
    m.store a bs = some m' ↔ m.Rw a n ∧ m' = m.put a bs := by
  subst hn
  constructor
  · intro h
    obtain ⟨rfl, hrw⟩ := store_eq_some h
    exact ⟨hrw, rfl⟩
  · rintro ⟨hrw, rfl⟩
    exact hrw.store

theorem load_eq_some_iff {bs : List UInt8} :
    m.load a n = some bs ↔ m.Rd a n ∧ bs = m.bytes a n := by
  rw [load]
  by_cases h : ((List.range n).all fun i => m.readable (a + i)) = true
  · rw [if_pos h, Option.some_inj]
    refine ⟨fun hb => ⟨fun x h1 h2 => ?_, hb.symm⟩, fun hb => hb.2.symm⟩
    have := List.all_eq_true.mp h (x - a) (List.mem_range.mpr (by omega))
    rwa [Nat.add_sub_of_le h1] at this
  · rw [if_neg h]
    refine ⟨fun hn => absurd hn (by simp), fun hb => absurd ?_ h⟩
    exact List.all_eq_true.mpr fun i hi => hb.1 _ (by omega) (by
      have := List.mem_range.mp hi
      omega)

/-- **Stores to ranges that may be written are made.** -/
theorem storeAll_of_rw : ∀ (ws : List (ℕ × ℕ × ℕ)) {m : Flat},
    (∀ w ∈ ws, m.Rw w.1 w.2.1) → storeAll ws m = (.ok (), setAll ws m) := by
  intro ws
  induction ws with
  | nil => exact fun _ => rfl
  | cons w ws ih =>
    intro m h
    obtain ⟨a, n, v⟩ := w
    rw [storeAll, (h (a, n, v) (.head _)).storeLe v]
    exact ih fun w hw => (h w (.tail _ hw)).congr rfl

/-- What is outside the ranges stored to stays. -/
theorem byte_setAll : ∀ (ws : List (ℕ × ℕ × ℕ)) {m : Flat} {x : ℕ},
    (∀ w ∈ ws, x < w.1 ∨ w.1 + w.2.1 ≤ x) → (setAll ws m).byte x = m.byte x := by
  intro ws
  induction ws with
  | nil => exact fun _ => rfl
  | cons w ws ih =>
    intro m x h
    exact (ih fun w hw => h w (.tail _ hw)).trans (byte_set_of_notMem (h w (.head _)))

@[simp] theorem writable_setAll : ∀ (ws : List (ℕ × ℕ × ℕ)) (m : Flat),
    (setAll ws m).writable = m.writable
  | [], _ => rfl
  | _ :: ws, _ => writable_setAll ws _

@[simp] theorem readable_setAll : ∀ (ws : List (ℕ × ℕ × ℕ)) (m : Flat),
    (setAll ws m).readable = m.readable
  | [], _ => rfl
  | _ :: ws, _ => readable_setAll ws _

/-! ### Less that may be written -/

/-- The same memory, of which less may be written. -/
def confine (m : Flat) (p : ℕ → Bool) : Flat :=
  { m with
    writable := fun x => m.writable x && p x
    readable_of_writable := fun x h =>
      m.readable_of_writable x (Bool.and_eq_true _ _ ▸ h).1 }

@[simp] theorem byte_confine (m : Flat) (p : ℕ → Bool) : (m.confine p).byte = m.byte := rfl

@[simp] theorem readable_confine (m : Flat) (p : ℕ → Bool) :
    (m.confine p).readable = m.readable := rfl

theorem writable_confine {p : ℕ → Bool} {x : ℕ} :
    (m.confine p).writable x = true ↔ m.writable x = true ∧ p x = true := by
  rw [← Bool.and_eq_true]
  rfl

/-! ### Memories that agree off a region -/

/-- The same permissions, and the same bytes off a region. -/
structure AgreeOff (R : Set ℕ) (m m' : Flat) : Prop where
  /-- The bytes. -/
  byte : ∀ x, x ∉ R → m.byte x = m'.byte x
  /-- What may be read. -/
  readable : m.readable = m'.readable
  /-- What may be written. -/
  writable : m.writable = m'.writable

namespace AgreeOff

variable {R : Set ℕ} {m₁ m₂ m₃ : Flat} {bs : List UInt8}

@[refl] theorem refl (R : Set ℕ) (m : Flat) : AgreeOff R m m := ⟨fun _ _ => rfl, rfl, rfl⟩

@[symm] theorem symm (h : AgreeOff R m₁ m₂) : AgreeOff R m₂ m₁ :=
  ⟨fun x hx => (h.byte x hx).symm, h.readable.symm, h.writable.symm⟩

@[trans] theorem trans (h : AgreeOff R m₁ m₂) (h' : AgreeOff R m₂ m₃) : AgreeOff R m₁ m₃ :=
  ⟨fun x hx => (h.byte x hx).trans (h'.byte x hx), h.readable.trans h'.readable,
    h.writable.trans h'.writable⟩

theorem put_left (bs : List UInt8) (h : ∀ x, a ≤ x → x < a + bs.length → x ∈ R) :
    AgreeOff R (m.put a bs) m :=
  ⟨fun x hx => byte_put_of_notMem (by
    by_contra hn
    exact hx (h x (by omega) (by omega))), rfl, rfl⟩

theorem set_left (v : ℕ) (h : ∀ x, a ≤ x → x < a + n → x ∈ R) : AgreeOff R (m.set a n v) m :=
  put_left _ (by rwa [length_toLe])

/-- A read off the region gives the same. -/
theorem load (h : AgreeOff R m₁ m₂) (hoff : ∀ x, a ≤ x → x < a + n → x ∉ R) :
    m₁.load a n = m₂.load a n := by
  rw [Flat.load, Flat.load, h.readable, bytes_congr fun x h1 h2 => h.byte x (hoff x h1 h2)]

theorem loadLe (h : AgreeOff R m₁ m₂) (hoff : ∀ x, a ≤ x → x < a + n → x ∉ R) :
    m₁.loadLe a n = m₂.loadLe a n := by
  rw [Flat.loadLe, h.load hoff, Flat.loadLe]

theorem put (h : AgreeOff R m₁ m₂) (a : ℕ) (bs : List UInt8) :
    AgreeOff R (m₁.put a bs) (m₂.put a bs) where
  byte x hx := by
    show (if _ then _ else m₁.byte x) = if _ then _ else m₂.byte x
    rw [h.byte x hx]
  readable := h.readable
  writable := h.writable

/-- Bytes that are put over the difference make the memories the same. -/
theorem put_over (h : AgreeOff R m₁ m₂) (bs : List UInt8)
    (hR : ∀ x ∈ R, a ≤ x ∧ x < a + bs.length) (R' : Set ℕ) :
    AgreeOff R' (m₁.put a bs) (m₂.put a bs) where
  byte x _ := by
    show (if _ then _ else m₁.byte x) = if _ then _ else m₂.byte x
    split
    · rfl
    · rename_i hx
      exact h.byte x fun hmem => hx (hR x hmem)
  readable := h.readable
  writable := h.writable

/-- **The same store is granted or denied in both**, and leaves them in agreement. -/
theorem store (h : AgreeOff R m₁ m₂) (a : ℕ) (bs : List UInt8) :
    (m₁.store a bs = none ∧ m₂.store a bs = none) ∨
      ∃ m₁' m₂', m₁.store a bs = some m₁' ∧ m₂.store a bs = some m₂' ∧ AgreeOff R m₁' m₂' := by
  simp only [Flat.store, h.writable]
  split
  · exact .inr ⟨_, _, rfl, rfl, h.put a bs⟩
  · exact .inl ⟨rfl, rfl⟩

end AgreeOff

/-- Stores in a region are not seen off it. -/
theorem storeAll_agreeOff {R : Set ℕ} : ∀ (ws : List (ℕ × ℕ × ℕ)) {m : Flat},
    (∀ w ∈ ws, ∀ x, w.1 ≤ x → x < w.1 + w.2.1 → x ∈ R) → AgreeOff R (storeAll ws m).2 m := by
  intro ws
  induction ws with
  | nil => exact fun _ => .refl _ _
  | cons w ws ih =>
    intro m h
    obtain ⟨a, n, v⟩ := w
    rw [storeAll]
    cases hs : m.storeLe a n v with
    | none => exact .refl _ _
    | some m' =>
      obtain ⟨rfl, -⟩ := storeLe_eq_some hs
      exact (ih fun w hw => h w (.tail _ hw)).trans (.set_left v (h (a, n, v) (.head _)))

end Flat

end Wie
