import Wie.Lib.Text
import Wie.Lib.Widen
import Wie.Lib.Word
import Wie.Stubs.CurrentDirectory
import Wie.X86.Steps

/-!
# Text to units in the guest

`MultiByteToWideChar` has two bodies as well: a handler of the host, and machine code in the guest.
The code measures the source, tests the bytes of UTF-8 for being ASCII, and writes each byte as a
unit. What it is not for it gives to the handler, by a jump.

It differs from the handler in the table of the page 1252, in the size of the last argument, in
sources that the destination overlaps, and in what is left of RCX before the jump.

## Main definitions

* `writeMbwcImpl` — the code
* `multibyteToWide`, `handleMultiByteToWideChar` — the handler
* `MbwcCall` — calls of the code
* `MbwcCall.Right` — the code does what the handler does, or jumps to it
* `MbwcCall.Served` — the condition

## Main results

* `Mbwc.encode_eq` — the bytes of the code
* `MbwcCall.decode_code` — its instructions
-/

namespace Wie

open X86

/-! ### Code -/

namespace Mbwc

/-- Put the distance of a near jump, from the instruction after it to the target. -/
def patchRel32 (code : List UInt8) (immAt nextIp target : ℕ) : List UInt8 :=
  code.take immAt ++ toLe 4 (((target : ℤ) - nextIp) % 2 ^ 32).toNat ++ code.drop (immAt + 4)

/-- Put the distance of a short jump, from the instruction after it to the target. -/
def patchRel8 (code : List UInt8) (immAt nextIp target : ℕ) : List UInt8 :=
  code.set immAt (.ofNat (((target : ℤ) - nextIp) % 256).toNat)

/-- A jump whose distance is not in the code yet: where that is, what it counts from, and the
target. -/
inductive Fixup
  | near (immAt nextIp target : ℕ)
  | short (immAt nextIp target : ℕ)

/-- Put the distance in. -/
def Fixup.patch (code : List UInt8) : Fixup → List UInt8
  | .near immAt nextIp target => patchRel32 code immAt nextIp target
  | .short immAt nextIp target => patchRel8 code immAt nextIp target

/-- The code up to the address of the fallback, and the jumps. -/
def body : List UInt8 × List Fixup :=
  let c := [0x53, 0x56, 0x57, 0x41, 0x54]
  let c := c ++ [0x41, 0x89, 0xca]
  let c := c ++ [0x4d, 0x89, 0xcc]
  let c := c ++ [0x41, 0x83, 0xfa, 0x04]
  let jbSbcs := c.length
  let c := c ++ [0x0f, 0x82, 0, 0, 0, 0]
  let c := c ++ [0x41, 0x81, 0xfa]
  let c := c ++ toLe 4 1252
  let je1252 := c.length
  let c := c ++ [0x0f, 0x84, 0, 0, 0, 0]
  let c := c ++ [0x41, 0x81, 0xfa]
  let c := c ++ toLe 4 437
  let je437 := c.length
  let c := c ++ [0x0f, 0x84, 0, 0, 0, 0]
  let c := c ++ [0x41, 0x81, 0xfa]
  let c := c ++ toLe 4 65001
  let jeUtf8 := c.length
  let c := c ++ [0x0f, 0x84, 0, 0, 0, 0]
  let jFb0 := c.length
  let c := c ++ [0xe9, 0, 0, 0, 0]
  let sbcsFlag := c.length
  let c := c ++ [0x41, 0xb3, 0x00]
  let jGotFlag := c.length
  let c := c ++ [0xeb, 0x00]
  let utf8Flag := c.length
  let c := c ++ [0x41, 0xb3, 0x01]
  let gotFlag := c.length
  let c := c ++ [0x4c, 0x89, 0xc6]
  let c := c ++ [0x48, 0x85, 0xf6]
  let jzSrc0 := c.length
  let c := c ++ [0x0f, 0x84, 0, 0, 0, 0]
  let c := c ++ [0x41, 0x83, 0xfc, 0xff]
  let jneFixed := c.length
  let c := c ++ [0x0f, 0x85, 0, 0, 0, 0]
  let c := c ++ [0x31, 0xdb]
  let slLoop := c.length
  let c := c ++ [0x0f, 0xb6, 0x04, 0x1e]
  let c := c ++ [0x48, 0xff, 0xc3]
  let c := c ++ [0x84, 0xc0]
  let jnzSl := c.length
  let c := c ++ [0x75, 0x00]
  let c := c ++ [0x48, 0x81, 0xfb]
  let c := c ++ toLe 4 32768
  let jaLong := c.length
  let c := c ++ [0x0f, 0x87, 0, 0, 0, 0]
  let jHlen := c.length
  let c := c ++ [0xe9, 0, 0, 0, 0]
  let fixed := c.length
  let c := c ++ [0x45, 0x85, 0xe4]
  let jsNeg := c.length
  let c := c ++ [0x0f, 0x88, 0, 0, 0, 0]
  let c := c ++ [0x44, 0x89, 0xe3]
  let c := c ++ [0x85, 0xdb]
  let jzZlen := c.length
  let c := c ++ [0x0f, 0x84, 0, 0, 0, 0]
  let hlen := c.length
  let c := c ++ [0x45, 0x84, 0xdb]
  let jzSkipAscii := c.length
  let c := c ++ [0x0f, 0x84, 0, 0, 0, 0]
  let c := c ++ [0x51]
  let c := c ++ [0x48, 0x89, 0xd9]
  let c := c ++ [0x48, 0x89, 0xf0]
  let asc := c.length
  let c := c ++ [0xf6, 0x00, 0x80]
  let jnzNonAscii := c.length
  let c := c ++ [0x0f, 0x85, 0, 0, 0, 0]
  let c := c ++ [0x48, 0xff, 0xc0]
  let c := c ++ [0x48, 0xff, 0xc9]
  let jnzAsc := c.length
  let c := c ++ [0x75, 0x00]
  let c := c ++ [0x59]
  let jAfterAsc := c.length
  let c := c ++ [0xeb, 0x00]
  let nonAscii := c.length
  let c := c ++ [0x59]
  let jFbUtf8 := c.length
  let c := c ++ [0xe9, 0, 0, 0, 0]
  let afterAsc := c.length
  let c := c ++ [0x4c, 0x8b, 0x4c, 0x24, 0x48]
  let c := c ++ [0x44, 0x8b, 0x5c, 0x24, 0x50]
  let c := c ++ [0x4d, 0x85, 0xc9]
  let jzRlen := c.length
  let c := c ++ [0x0f, 0x84, 0, 0, 0, 0]
  let c := c ++ [0x45, 0x85, 0xdb]
  let jzRlen2 := c.length
  let c := c ++ [0x0f, 0x84, 0, 0, 0, 0]
  let c := c ++ [0x44, 0x39, 0xdb]
  let jaSmall := c.length
  let c := c ++ [0x0f, 0x87, 0, 0, 0, 0]
  let c := c ++ [0x48, 0x89, 0xd9]
  let c := c ++ [0x4c, 0x89, 0xcf]
  let c := c ++ [0xfc]
  let exp := c.length
  let c := c ++ [0x0f, 0xb6, 0x06]
  let c := c ++ [0x48, 0xff, 0xc6]
  let c := c ++ [0x66, 0xab]
  let c := c ++ [0x48, 0xff, 0xc9]
  let jnzExp := c.length
  let c := c ++ [0x75, 0x00]
  let rlen := c.length
  let c := c ++ [0x89, 0xd8]
  let c := c ++ [0x41, 0x5c, 0x5f, 0x5e, 0x5b, 0xc3]
  let r0 := c.length
  let c := c ++ [0x31, 0xc0]
  let c := c ++ [0x41, 0x5c, 0x5f, 0x5e, 0x5b, 0xc3]
  let fb := c.length
  let c := c ++ [0x44, 0x89, 0xd1]
  let c := c ++ [0x4d, 0x89, 0xe1]
  let c := c ++ [0x41, 0x5c, 0x5f, 0x5e, 0x5b]
  let c := c ++ [0x48, 0xb8]
  (c, [.near (jbSbcs + 2) (jbSbcs + 6) sbcsFlag, .near (je1252 + 2) (je1252 + 6) sbcsFlag,
    .near (je437 + 2) (je437 + 6) sbcsFlag, .near (jeUtf8 + 2) (jeUtf8 + 6) utf8Flag,
    .near (jFb0 + 1) (jFb0 + 5) fb, .short (jGotFlag + 1) (jGotFlag + 2) gotFlag,
    .near (jzSrc0 + 2) (jzSrc0 + 6) r0, .near (jneFixed + 2) (jneFixed + 6) fixed,
    .short (jnzSl + 1) (jnzSl + 2) slLoop, .near (jaLong + 2) (jaLong + 6) fb,
    .near (jHlen + 1) (jHlen + 5) hlen, .near (jsNeg + 2) (jsNeg + 6) fb,
    .near (jzZlen + 2) (jzZlen + 6) r0, .near (jzSkipAscii + 2) (jzSkipAscii + 6) afterAsc,
    .near (jnzNonAscii + 2) (jnzNonAscii + 6) nonAscii, .short (jnzAsc + 1) (jnzAsc + 2) asc,
    .short (jAfterAsc + 1) (jAfterAsc + 2) afterAsc, .near (jFbUtf8 + 1) (jFbUtf8 + 5) fb,
    .near (jzRlen + 2) (jzRlen + 6) rlen, .near (jzRlen2 + 2) (jzRlen2 + 6) rlen,
    .near (jaSmall + 2) (jaSmall + 6) r0, .short (jnzExp + 1) (jnzExp + 2) exp])

end Mbwc

/-- `write_mbwc_impl`: the code. -/
def writeMbwcImpl (fallbackVa : ℕ) : List UInt8 :=
  Mbwc.body.2.foldl Mbwc.Fixup.patch (Mbwc.body.1 ++ (toLe 8 fallbackVa ++ [0xff, 0xe0]))

/-! ### The handler -/

/-- The page of `GetACP`. -/
def CP_ACP : ℕ := 1252

/-- The page of `GetOEMCP`. -/
def CP_OEMCP : ℕ := 437

/-- UTF-8. -/
def CP_UTF8 : ℕ := 65001

/-- The units of the bytes from 0x80 to 0x9f in the page 1252. -/
def CP1252_80_9F : List UInt16 :=
  [0x20AC, 0x0081, 0x201A, 0x0192, 0x201E, 0x2026, 0x2020, 0x2021,
    0x02C6, 0x2030, 0x0160, 0x2039, 0x0152, 0x008D, 0x017D, 0x008F,
    0x0090, 0x2018, 0x2019, 0x201C, 0x201D, 0x2022, 0x2013, 0x2014,
    0x02DC, 0x2122, 0x0161, 0x203A, 0x0153, 0x009D, 0x017E, 0x0178]

/-- `cp1252_byte_to_u16`. -/
def cp1252ByteToU16 (byte : UInt8) : UInt16 :=
  if 0x80 ≤ byte ∧ byte ≤ 0x9f then CP1252_80_9F.getD (byte.toNat - 0x80) byte.toUInt16
  else byte.toUInt16

/-- `multibyte_to_wide`. -/
def multibyteToWide (codePage : ℕ) (bytes : List UInt8) : List UInt16 :=
  if codePage = CP_ACP then bytes.map cp1252ByteToU16
  else if codePage = 0 ∨ codePage = 1 ∨ codePage = 2 ∨ codePage = 3 ∨ codePage = CP_OEMCP then
    bytes.map UInt8.toUInt16
  else if codePage = CP_UTF8 then
    match fromUtf8 bytes with
    | some s => encodeUtf16 s
    | none => encodeUtf16 (fromUtf8Lossy bytes)
  else encodeUtf16 (fromUtf8Lossy bytes)

/-- The most bytes of a string that are looked at for its end. -/
def MAX_BYTES : ℕ := 32768

/-- The loop of `read_null_terminated_bytes`, from the byte at `index`, for so many rounds. -/
def readUntilNul (mem : Flat) (inputPtr : ℕ) : ℕ → ℕ → Option (List UInt8)
  | 0, _ => none
  | rounds + 1, index => do
    let address ← checkedAdd inputPtr index
    let byte ← mem.loadLe address 1
    if byte = 0 then some [0]
    else (readUntilNul mem inputPtr rounds (index + 1)).map (UInt8.ofNat byte :: ·)

/-- `read_null_terminated_bytes`: with the zero. -/
def readNullTerminatedBytes (mem : Flat) (inputPtr : ℕ) : Option (List UInt8) :=
  readUntilNul mem inputPtr MAX_BYTES 0

/-- `low_u32_to_i32`. -/
def lowU32ToI32 (value : ℕ) : ℤ :=
  if value % 2 ^ 32 < 2 ^ 31 then (value % 2 ^ 32 : ℕ) else (value % 2 ^ 32 : ℕ) - 2 ^ 32

/-- `read_multibyte_bytes`. -/
def readMultibyteBytes (mem : Flat) (inputPtr inputLenRaw : ℕ) : Option (List UInt8) :=
  if inputPtr = 0 then some []
  else
    let inputLen := lowU32ToI32 inputLenRaw
    if inputLen = -1 then readNullTerminatedBytes mem inputPtr
    else if 0 ≤ inputLen then mem.load inputPtr inputLen.toNat
    else none

/-- `handle_multi_byte_to_wide_char`, before it returns: the value and the memory. -/
def handleMultiByteToWideChar (gpr : Fin 16 → BitVec 64) (mem : Flat) : Option (ℕ × Flat) := do
  let codePage := (gpr 1).toNat
  let inputPtr := (gpr 8).toNat
  let inputLenRaw := (gpr 9).toNat
  let rsp := (gpr 4).toNat
  let outputPtr ← mem.loadLe (← checkedAdd rsp 0x28) 8
  let outputLen ← mem.loadLe (← checkedAdd rsp 0x30) 8
  let inputBytes ← readMultibyteBytes mem inputPtr inputLenRaw
  let units := multibyteToWide (codePage % 2 ^ 32) inputBytes
  if outputPtr = 0 ∨ outputLen = 0 then some (units.length, mem)
  else if outputLen < units.length then some (0, mem)
  else (mem.store outputPtr (unitBytes units)).map (units.length, ·)

/-! ### Calls -/

/-- What the bytes of a source are: none, a string with its zero, or as many as it has. -/
def SourceBytes (mem : Flat) (src length : ℕ) (bytes : List UInt8) : Prop :=
  if src = 0 then bytes = []
  else if length = 2 ^ 32 - 1 then
    mem.load src bytes.length = some bytes ∧ ∃ text, bytes = text ++ [0] ∧ 0 ∉ text
  else if length < 2 ^ 31 then bytes.length = length ∧ mem.load src length = some bytes
  else bytes = []

/-- A call of the code. RCX is the code page, R8 the source and R9 its length; the destination and
its length in units are on the stack. The source can be read, and the destination can be written as
far as it and the source go. The page below the stack pointer belongs to the callee. -/
structure MbwcCall where
  /-- Address of the code. -/
  base : ℕ
  /-- Address of the fallback. -/
  fallbackVa : ℕ
  /-- The machine at the entry. -/
  entry : State
  /-- The bytes of the source. -/
  bytes : List UInt8
  /-- The code is entered at its start. -/
  rip : entry.rip = base
  /-- The code does not reach the top. -/
  code_top : base + 284 ≤ 2 ^ 64
  /-- The fallback is an address outside the code. -/
  fallback : fallbackVa < 2 ^ 64 ∧ (fallbackVa < base ∨ base + 284 ≤ fallbackVa)
  /-- There is room on the stack. -/
  stack_room : 0x1000 ≤ (entry.gpr 4).toNat ∧ (entry.gpr 4).toNat + 0x38 < 2 ^ 64
  /-- The stack can be used, to the last argument. -/
  stack : entry.mem.Rw ((entry.gpr 4).toNat - 0x1000) (0x1000 + 0x38)
  /-- The caller is not in the code. -/
  outside : entry.mem.get (entry.gpr 4).toNat 8 < base ∨
    base + 284 ≤ entry.mem.get (entry.gpr 4).toNat 8
  /-- The source can be read. -/
  source : SourceBytes entry.mem (entry.gpr 8).toNat ((entry.gpr 9).toNat % 2 ^ 32) bytes
  /-- It does not reach the top. -/
  source_top : (entry.gpr 8).toNat + bytes.length < 2 ^ 64
  /-- It is apart from the stack of the callee. -/
  source_apart : (entry.gpr 8).toNat + bytes.length ≤ (entry.gpr 4).toNat - 0x1000 ∨
    (entry.gpr 4).toNat ≤ (entry.gpr 8).toNat
  /-- A destination that takes the source can be written. -/
  target : entry.mem.get ((entry.gpr 4).toNat + 0x28) 8 ≠ 0 →
    bytes.length ≤ entry.mem.get ((entry.gpr 4).toNat + 0x30) 8 % 2 ^ 32 →
    entry.mem.Rw (entry.mem.get ((entry.gpr 4).toNat + 0x28) 8) (2 * bytes.length) ∧
      entry.mem.get ((entry.gpr 4).toNat + 0x28) 8 + 2 * bytes.length < 2 ^ 64
  /-- It is apart from the stack of the callee and from the return address. -/
  target_apart : entry.mem.get ((entry.gpr 4).toNat + 0x28) 8 ≠ 0 →
    bytes.length ≤ entry.mem.get ((entry.gpr 4).toNat + 0x30) 8 % 2 ^ 32 →
    entry.mem.get ((entry.gpr 4).toNat + 0x28) 8 + 2 * bytes.length ≤
        (entry.gpr 4).toNat - 0x1000 ∨
      (entry.gpr 4).toNat + 8 ≤ entry.mem.get ((entry.gpr 4).toNat + 0x28) 8

namespace MbwcCall

variable (c : MbwcCall)

/-- The code. -/
def code : List UInt8 := writeMbwcImpl c.fallbackVa

/-- The stack pointer at the entry. -/
def rsp : ℕ := (c.entry.gpr 4).toNat

/-- `CodePage`. -/
def codePage : ℕ := (c.entry.gpr 1).toNat % 2 ^ 32

/-- `lpMultiByteStr`. -/
def src : ℕ := (c.entry.gpr 8).toNat

/-- `cbMultiByte`. -/
def cb : ℕ := (c.entry.gpr 9).toNat % 2 ^ 32

/-- `lpWideCharStr`. -/
def dst : ℕ := c.entry.mem.get (c.rsp + 0x28) 8

/-- The eight bytes on the stack that `cchWideChar` is in the lower half of. -/
def cchSlot : ℕ := c.entry.mem.get (c.rsp + 0x30) 8

/-- `cchWideChar`. -/
def cch : ℕ := c.cchSlot % 2 ^ 32

/-- Where the caller goes on. -/
def returnAddress : ℕ := c.entry.mem.get c.rsp 8

/-- The part of the stack that the code uses. -/
def scratch : Set ℕ := {x | c.rsp - 40 ≤ x ∧ x < c.rsp}

/-- The registers a callee gives back as they were, besides the stack pointer. -/
def nonvolatile : List (Fin 16) := [3, 5, 6, 7, 12, 13, 14, 15]

/-- The code is at the fallback, with the arguments and the memory of the call. -/
structure AtFallback (t : State) : Prop where
  /-- It is there. -/
  rip : t.rip = c.fallbackVa
  /-- The arguments and the stack pointer. -/
  gpr : ∀ r ∈ [1, 2, 8, 9, 4], t.gpr r = c.entry.gpr r
  /-- The stack arguments, and all other memory. -/
  mem : ∀ x, x ∉ c.scratch → t.mem.byte x = c.entry.mem.byte x

/-- The code has returned with the value and the memory of the handler. -/
structure Returned (t : State) (value : ℕ) (mem : Flat) : Prop where
  /-- It is at the caller. -/
  rip : t.rip = c.returnAddress
  /-- The return address is taken. -/
  rsp : t.gpr 4 = c.entry.gpr 4 + 8
  /-- RAX. -/
  rax : (t.gpr 0).toNat = value
  /-- The destination, and all other memory. -/
  mem : ∀ x, x ∉ c.scratch → t.mem.byte x = mem.byte x

/-- The code jumps to the fallback with the arguments it got, or returns what the handler does. -/
def Right : Prop :=
  ∃ t, X86.Ends c.code c.base c.entry t ∧ (∀ r ∈ nonvolatile, t.gpr r = c.entry.gpr r) ∧
    (c.AtFallback t ∨ ∃ value mem,
      handleMultiByteToWideChar c.entry.gpr c.entry.mem = some (value, mem) ∧
        c.Returned t value mem)

/-! ### The condition -/

/-- The pages with one byte for each unit. -/
def SingleByte : Prop := c.codePage < 4 ∨ c.codePage = CP_ACP ∨ c.codePage = CP_OEMCP

instance : Decidable c.SingleByte := inferInstanceAs (Decidable (_ ∨ _ ∨ _))

/-- The call is not one for the code: the page is another one, the length is negative, the string is
too long, or it is UTF-8 but not ASCII. -/
def FallsBack : Prop :=
  ¬(c.SingleByte ∨ c.codePage = CP_UTF8) ∨ c.src ≠ 0 ∧
    (c.cb = 2 ^ 32 - 1 ∧ MAX_BYTES < c.bytes.length ∨ c.cb ≠ 2 ^ 32 - 1 ∧ 2 ^ 31 ≤ c.cb ∨
      c.codePage = CP_UTF8 ∧ ∃ b ∈ c.bytes, 0x80 ≤ b)

/-- The units of the handler, where the code does the call. -/
def units : List UInt16 :=
  c.bytes.map fun b => if c.codePage = CP_ACP then cp1252ByteToU16 b else b.toUInt16

/-- The condition. A call that is given to the handler has nothing in the upper half of RCX. One that
is not and has a destination is of one of four kinds: the source is empty; the destination has no
units, and all of the last argument is zero, or the result is there already; the destination is too
short, and nothing is in the upper half of the last argument; or the table of the page maps the
bytes to themselves and none is written over too early. -/
def Served : Prop :=
  (c.FallsBack → (c.entry.gpr 1).toNat < 2 ^ 32) ∧
    (¬c.FallsBack → c.dst ≠ 0 → c.bytes ≠ [] →
      if c.cch = 0 then c.cchSlot = 0 ∨ c.entry.mem.Rw c.dst (2 * c.bytes.length) ∧
        ∀ x, x ∉ c.scratch →
          (c.entry.mem.put c.dst (unitBytes c.units)).byte x = c.entry.mem.byte x
      else if c.cch < c.bytes.length then c.cchSlot = c.cch
      else (c.codePage = CP_ACP → ∀ b ∈ c.bytes, cp1252ByteToU16 b = b.toUInt16) ∧
        c.entry.mem.Undisturbed c.src c.dst c.bytes.length)

end MbwcCall

end Wie
