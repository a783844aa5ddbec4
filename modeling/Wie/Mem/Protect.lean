import Mathlib.Tactic.Common
import Mathlib.Algebra.Order.Ring.Nat

/-!
# Page protections, access kinds and errors

The Windows `PAGE_*` constants and the software questions asked of them. A protection is a plain
number: the tables store whatever number they were given, and only the predicates below interpret
it, so a number that is not one of the constants permits nothing.

Errors carry the text the emulator produces. A Win32 failure is a text with a `win32(N):` prefix,
which is how the API layer recovers the code.

## Main definitions

* `CpuError`, `vaError` — error texts, plain and with a Win32 code
* `AccessKind`, `Protect.allows` — what an access asks for and whether a protection grants it
* `Protect.pageProtectFromRwx`, `Protect.rwxFromPageProtect` — to and from r/w/x bits

## Main results

* `Protect.allowsRead_of_allowsWrite` — nothing is writable without being readable
-/

namespace Wie

/-- A CPU or memory error: the text the emulator reports. -/
inductive CpuError where
  /-- An error text. -/
  | message (text : String)
  deriving DecidableEq, Repr

/-- `n` in the form `{n:#x}` prints. -/
def hex (n : ℕ) : String := "0x" ++ String.ofList (Nat.toDigits 16 n)

/-- Win32 `ERROR_INVALID_ADDRESS`. -/
def errorInvalidAddress : ℕ := 487

/-- Win32 `ERROR_INVALID_PARAMETER`. -/
def errorInvalidParameter : ℕ := 87

/-- Win32 `ERROR_NOT_ENOUGH_MEMORY`. -/
def errorNotEnoughMemory : ℕ := 8

/-- An error text that carries a Win32 code in its prefix. -/
def vaError (win32 : ℕ) (msg : String) : CpuError := .message s!"win32({win32}): {msg}"

/-- What a guest access asks of a page. -/
inductive AccessKind where
  /-- A data load. -/
  | read
  /-- A data store. -/
  | write
  /-- An instruction fetch. -/
  | execute
  deriving DecidableEq, Repr

/-! ### Unicorn-style permission bits -/

namespace Perm

/-- Read bit. -/
def read : ℕ := 1

/-- Write bit. -/
def write : ℕ := 2

/-- Execute bit. -/
def exec : ℕ := 4

/-- Read, write and execute. -/
def all : ℕ := 7

end Perm

/-! ### Windows page protections -/

namespace Protect

/-- No access. -/
def pageNoaccess : ℕ := 0x01

/-- Read only. -/
def pageReadonly : ℕ := 0x02

/-- Read and write. -/
def pageReadwrite : ℕ := 0x04

/-- Execute only. -/
def pageExecute : ℕ := 0x10

/-- Execute and read. -/
def pageExecuteRead : ℕ := 0x20

/-- Execute, read and write. -/
def pageExecuteReadwrite : ℕ := 0x40

/-- Whether `protect` allows a data read. -/
def allowsRead (protect : ℕ) : Bool :=
  protect == pageReadonly || protect == pageReadwrite || protect == pageExecuteRead ||
    protect == pageExecuteReadwrite

/-- Whether `protect` allows a data write. -/
def allowsWrite (protect : ℕ) : Bool :=
  protect == pageReadwrite || protect == pageExecuteReadwrite

/-- Whether `protect` allows an instruction fetch. -/
def allowsExecute (protect : ℕ) : Bool :=
  protect == pageExecute || protect == pageExecuteRead || protect == pageExecuteReadwrite

/-- Whether `protect` allows the access `kind`. -/
def allows (protect : ℕ) : AccessKind → Bool
  | .read => allowsRead protect
  | .write => allowsWrite protect
  | .execute => allowsExecute protect

/-- r/w/x bits as a page protection. Windows has no write without read, so those become
read-write. -/
def pageProtectFromRwx (rwx : ℕ) : ℕ :=
  match rwx &&& Perm.read != 0, rwx &&& Perm.write != 0, rwx &&& Perm.exec != 0 with
  | _, true, true => pageExecuteReadwrite
  | true, false, true => pageExecuteRead
  | _, true, false => pageReadwrite
  | true, false, false => pageReadonly
  | false, false, true => pageExecute
  | false, false, false => pageNoaccess

/-- A page protection as r/w/x bits. -/
def rwxFromPageProtect (protect : ℕ) : ℕ :=
  (if allowsRead protect then Perm.read else 0) |||
    (if allowsWrite protect then Perm.write else 0) |||
    (if allowsExecute protect then Perm.exec else 0)

/-- Whether `value` is one of the six supported protections. -/
def isSupportedProtect (value : ℕ) : Bool :=
  value == pageNoaccess || value == pageReadonly || value == pageReadwrite ||
    value == pageExecute || value == pageExecuteRead || value == pageExecuteReadwrite

/-- Nothing is writable without being readable. -/
theorem allowsRead_of_allowsWrite {protect : ℕ} (h : allowsWrite protect = true) :
    allowsRead protect = true := by
  simp only [allowsWrite, allowsRead, Bool.or_eq_true] at h ⊢
  tauto

end Protect

end Wie
