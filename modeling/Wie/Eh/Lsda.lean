import Wie.Eh.VirtualUnwind

/-!
# The search of a language-specific data area

`find_landing_pad_ex` and `find_cleanup_landing_pad` parse the header of an LSDA, go through its
call-site table and, for the sites that cover the program counter, through a chain of actions.

A cursor that the source advances in place is returned with the value read. The loop over the table
stops at its end; the number of bytes left bounds the number of its rounds.

## Main definitions

* `readUleb128`, `readSleb128`, `readEncodedValue`, `applyEncoding` — the encodings
* `LsdaHeader`, `readHeader`, `RawSite`, `readSite` — the tables
* `resolveTtype`, `matchAction` — the actions of a site
* `findLandingPadEx`, `findCleanupLandingPad`
-/

namespace Wie

namespace dw_eh_pe

/-- No value. -/
def OMIT : ℕ := 0xff
/-- Absolute pointer. -/
def ABSPTR : ℕ := 0x00
/-- Unsigned LEB128. -/
def ULEB128 : ℕ := 0x01
/-- Signed LEB128. -/
def SLEB128 : ℕ := 0x09
/-- Relative to the value itself. -/
def PCREL : ℕ := 0x10
/-- Relative to the text. -/
def TEXTREL : ℕ := 0x20
/-- Relative to the data. -/
def DATAREL : ℕ := 0x30
/-- Relative to the function. -/
def FUNCREL : ℕ := 0x40
/-- Aligned. -/
def ALIGNED : ℕ := 0x50
/-- A pointer to the value. -/
def INDIRECT : ℕ := 0x80

end dw_eh_pe

/-! ### Encoded values -/

/-- Read one byte. -/
def readByte (read : MemRead) (cursor : ℕ) : Option (ℕ × ℕ) := do
  let b ← read cursor 1
  some (fromLe b, satAdd cursor 1)

/-- `read_uleb128`, with `rounds` rounds of its loop to go. -/
def ulebLoop (read : MemRead) : (rounds : ℕ) → (shift v cursor : ℕ) → Option (ℕ × ℕ)
  | 0, _, _, _ => none
  | rounds + 1, shift, v, cursor => do
    let (b, cursor) ← readByte read cursor
    let v := v ||| (b &&& 0x7f) <<< shift
    if b &&& 0x80 = 0 then some (v, cursor) else ulebLoop read rounds (shift + 7) v cursor

/-- `read_uleb128`: no value has more than nine bytes. -/
def readUleb128 (read : MemRead) (cursor : ℕ) : Option (ℕ × ℕ) := ulebLoop read 9 0 0 cursor

/-- `read_sleb128`, with `rounds` rounds of its loop to go. The bits set for the sign are above
those of `v`. -/
def slebLoop (read : MemRead) : (rounds : ℕ) → (shift v cursor : ℕ) → Option (ℤ × ℕ)
  | 0, _, _, _ => none
  | rounds + 1, shift, v, cursor => do
    let (b, cursor) ← readByte read cursor
    let v := v ||| (b &&& 0x7f) <<< shift
    if b &&& 0x80 = 0 then
      some (if b &&& 0x40 ≠ 0 then (v : ℤ) - 2 ^ (shift + 7) else v, cursor)
    else slebLoop read rounds (shift + 7) v cursor

/-- `read_sleb128`. -/
def readSleb128 (read : MemRead) (cursor : ℕ) : Option (ℤ × ℕ) := slebLoop read 9 0 0 cursor

/-- `dw_format_size`. -/
def dwFormatSize : (format : ℕ) → Option ℕ
  | 0x00 | 0x04 | 0x0c => some 8
  | 0x02 | 0x0a => some 2
  | 0x03 | 0x0b => some 4
  | _ => none

/-- `is_signed_format`. -/
def isSignedFormat : (format : ℕ) → Bool
  | 0x09 | 0x0a | 0x0b | 0x0c => true
  | _ => false

/-- Two's complement of an integer in 64 bits. -/
def asU64 (z : ℤ) : ℕ := (z % 2 ^ 64).toNat

/-- The integer that 64 bits stand for. -/
def asI64 (n : ℕ) : ℤ := if n < 2 ^ 63 then n else (n : ℤ) - 2 ^ 64

/-- The sign extension of `read_encoded_value`. The source shifts one by the number of bits, and a
shift by 64 is a shift by 0. -/
def signExtend (size v : ℕ) : ℕ :=
  if v &&& 2 ^ (size * 8 - 1) ≠ 0 then v ||| (2 ^ 64 - 2 ^ (size * 8 % 64)) else v

/-- `read_encoded_value`: the raw value, where it is stored, and the cursor. -/
def readEncodedValue (read : MemRead) (cursor encoding : ℕ) : Option (ℕ × ℕ × ℕ) :=
  if encoding = dw_eh_pe.OMIT then some (0, cursor, cursor)
  else
    let format := encoding &&& 0x0f
    if format = dw_eh_pe.ULEB128 then do
      let (v, next) ← readUleb128 read cursor
      some (v, cursor, next)
    else if format = dw_eh_pe.SLEB128 then do
      let (v, next) ← readSleb128 read cursor
      some (asU64 v, cursor, next)
    else do
      let sz ← dwFormatSize format
      let buf ← read cursor sz
      let v := fromLe buf
      some (if isSignedFormat format then signExtend sz v else v, cursor, satAdd cursor sz)

/-- Where the encoded addresses of an LSDA are relative to. -/
structure LsdaBases where
  /-- Base of the image, for text and data. -/
  imageBase : ℕ
  /-- Start of the function. -/
  funcStart : ℕ

/-- `apply_encoding`. -/
def applyEncoding (read : MemRead) (bases : LsdaBases) (encoding raw storageVa : ℕ) : Option ℕ :=
  if encoding = dw_eh_pe.OMIT then some 0
  else if raw = 0 then some 0
  else
    let app := encoding &&& 0x70
    let addr :=
      if app = dw_eh_pe.PCREL then (storageVa + raw) % 2 ^ 64
      else if app = dw_eh_pe.TEXTREL then (bases.imageBase + raw) % 2 ^ 64
      else if app = dw_eh_pe.DATAREL then (bases.imageBase + raw) % 2 ^ 64
      else if app = dw_eh_pe.FUNCREL then (bases.funcStart + raw) % 2 ^ 64
      else raw
    if encoding &&& dw_eh_pe.INDIRECT ≠ 0 ∧ addr ≠ 0 then do
      let buf ← read addr 8
      some (fromLe buf)
    else some addr

/-! ### The tables -/

/-- What the header of an LSDA says. -/
structure LsdaHeader where
  /-- Landing pad base. -/
  lpBase : ℕ
  /-- Encoding of the type table. -/
  ttypeEnc : ℕ
  /-- End of the type table, which grows downward. -/
  ttypeBase : ℕ
  /-- Encoding of the call-site table. -/
  csEnc : ℕ
  /-- Length of the call-site table. -/
  csLen : ℕ
  /-- Start of the call-site table. -/
  csStart : ℕ

/-- The start of both searches: the landing pad base. -/
def readLpStart (read : MemRead) (bases : LsdaBases) (cursor : ℕ) : Option (ℕ × ℕ) := do
  let (lpEnc, cursor) ← readByte read cursor
  if lpEnc ≠ dw_eh_pe.OMIT then do
    let (raw, storage, cursor) ← readEncodedValue read cursor lpEnc
    let lpBase ← applyEncoding read bases lpEnc raw storage
    some (if lpBase = 0 then bases.funcStart else lpBase, cursor)
  else some (bases.funcStart, cursor)

/-- The start of both searches: the encoding of the type table and its end. -/
def readTtype (read : MemRead) (cursor : ℕ) : Option (ℕ × ℕ × ℕ) := do
  let (ttypeEnc, cursor) ← readByte read cursor
  if ttypeEnc ≠ dw_eh_pe.OMIT then do
    let (off, cursor) ← readUleb128 read cursor
    some (ttypeEnc, satAdd cursor off, cursor)
  else some (ttypeEnc, 0, cursor)

/-- The start of both searches. -/
def readHeader (read : MemRead) (bases : LsdaBases) (lsdaVa : ℕ) : Option LsdaHeader := do
  let (lpBase, cursor) ← readLpStart read bases lsdaVa
  let (ttypeEnc, ttypeBase, cursor) ← readTtype read cursor
  let (csEnc, cursor) ← readByte read cursor
  let (csLen, cursor) ← readUleb128 read cursor
  some ⟨lpBase, ttypeEnc, ttypeBase, csEnc, csLen, cursor⟩

/-- A record of the call-site table as it stands there. -/
structure RawSite where
  /-- Start of the range. -/
  start : ℕ
  /-- Length of the range. -/
  len : ℕ
  /-- Landing pad, 0 for none. -/
  pad : ℕ
  /-- Index of the first action, 0 for none. -/
  action : ℕ

/-- One field of a record. -/
def readField (read : MemRead) (format cursor : ℕ) : Option (ℕ × ℕ) :=
  if format = dw_eh_pe.ULEB128 then readUleb128 read cursor
  else do
    let (raw, _, cursor) ← readEncodedValue read cursor format
    some (raw, cursor)

/-- One record; a format of fixed width is checked first. -/
def readSite (read : MemRead) (format cursor : ℕ) : Option (RawSite × ℕ) := do
  if format ≠ dw_eh_pe.ULEB128 then
    let _ ← dwFormatSize format
  let (start, cursor) ← readField read format cursor
  let (len, cursor) ← readField read format cursor
  let (pad, cursor) ← readField read format cursor
  let (action, cursor) ← readUleb128 read cursor
  some (⟨start, len, pad, action⟩, cursor)

namespace LsdaHeader

/-- The base of the addresses in the call-site table. -/
def csBase (h : LsdaHeader) : ℕ := if h.csEnc &&& 0x0f = dw_eh_pe.ABSPTR then 0 else h.lpBase

/-- Whether the range of a record covers an address. -/
def covers (h : LsdaHeader) (s : RawSite) (p : ℕ) : Bool :=
  let rstart := satAdd h.csBase s.start
  decide (rstart ≤ p ∧ p < satAdd rstart s.len)

/-- The address of the landing pad of a record. -/
def landingVa (h : LsdaHeader) (s : RawSite) : ℕ := satAdd h.csBase s.pad

end LsdaHeader

/-- A landing pad that was found. -/
@[ext]
structure LandingPadMatch where
  /-- Its address. -/
  landingPad : ℕ
  /-- The index of the first action. -/
  actionIndex : ℕ
  /-- The handler switch value. -/
  switchValue : ℤ
deriving DecidableEq

/-! ### Actions -/

/-- `resolve_ttype`. -/
def resolveTtype (read : MemRead) (bases : LsdaBases) (ttypeBase ttypeEnc index : ℕ) : Option ℕ :=
  if index = 0 ∨ ttypeEnc = dw_eh_pe.OMIT then none
  else
    let format := ttypeEnc &&& 0x0f
    if format = dw_eh_pe.ULEB128 ∨ format = dw_eh_pe.SLEB128 then none
    else
      let entrySize := (dwFormatSize format).getD 0
      if entrySize = 0 then none
      else do
        let slot := ttypeBase - satMul index entrySize
        let (raw, storage, _) ← readEncodedValue read slot format
        applyEncoding read bases ttypeEnc raw storage

/-- What is known of the type table and of the exception during a search. -/
structure ActionEnv where
  /-- Memory. -/
  read : MemRead
  /-- Bases of encoded addresses. -/
  bases : LsdaBases
  /-- Start of the action table. -/
  actionTable : ℕ
  /-- End of the type table. -/
  ttypeBase : ℕ
  /-- Its encoding. -/
  ttypeEnc : ℕ
  /-- The type thrown, if it is known. -/
  thrownTypeinfo : Option ℕ

namespace ActionEnv

/-- The loop of `match_action`, with `rounds` rounds to go. -/
def matchLoop (e : ActionEnv) : (rounds : ℕ) → (catchAll : Option ℤ) → (idx : ℕ) →
    Option (Option ℤ)
  | 0, catchAll, _ => some catchAll
  | rounds + 1, catchAll, idx => do
    let rec_ := satAdd e.actionTable (idx - 1)
    let (filter, cursor) ← readSleb128 e.read rec_
    let (next, _) ← readSleb128 e.read cursor
    let slotTi := if filter > 0 then
      resolveTtype e.read e.bases e.ttypeBase e.ttypeEnc filter.toNat else none
    -- a typed match ends the walk
    if filter > 0 ∧ ∃ entry ∈ slotTi, entry ≠ 0 ∧ ∀ ti ∈ e.thrownTypeinfo, entry = ti then
      some (some filter)
    else
      let catchAll :=
        if filter = 0 then catchAll.or (some 0)
        else if filter > 0 ∧ slotTi = some 0 then catchAll.or (some filter)
        else catchAll
      if next = 0 then some catchAll
      else
        -- `next` counts from its own field
        let nextI := min (asI64 cursor + next) (2 ^ 63 - 1)
        if nextI ≤ 0 then some catchAll
        else if nextI.toNat < e.actionTable then some catchAll
        else matchLoop e rounds catchAll (satAdd (nextI.toNat - e.actionTable) 1)

/-- `match_action`. -/
def matchAction (e : ActionEnv) (actionIndex : ℕ) : Option ℤ :=
  if actionIndex = 0 then none else (e.matchLoop 32 none actionIndex).join

end ActionEnv

/-! ### The searches -/

/-- What the first search makes of a record. -/
def catchSite (e : ActionEnv) (h : LsdaHeader) (controlPc : ℕ) (s : RawSite) :
    Option LandingPadMatch :=
  if s.pad = 0 then none
  else if ¬ (h.covers s (controlPc - 1) ∨ h.covers s controlPc) then none
  else if h.landingVa s = 0 then none
  else if s.action = 0 then none
  else if h.ttypeEnc = dw_eh_pe.OMIT then none
  else (e.matchAction s.action).map fun sw => ⟨h.landingVa s, s.action, sw⟩

/-- What the second search makes of a record. -/
def cleanupSite (h : LsdaHeader) (controlPc : ℕ) (s : RawSite) : Option LandingPadMatch :=
  if s.pad = 0 ∨ s.action ≠ 0 then none
  else if ¬ (h.covers s (controlPc - 1) ∨ h.covers s controlPc) then none
  else if h.landingVa s = 0 then none
  else some ⟨h.landingVa s, 0, 0⟩

/-- The loop over the call-site table: the first record that `pick` makes something of. -/
def siteLoop (read : MemRead) (format csEnd : ℕ) (pick : RawSite → Option LandingPadMatch) :
    (rounds : ℕ) → (cursor : ℕ) → Option LandingPadMatch
  | 0, _ => none
  | rounds + 1, cursor =>
    if cursor < csEnd then do
      let (s, cursor) ← readSite read format cursor
      match pick s with
      | some r => some r
      | none => siteLoop read format csEnd pick rounds cursor
    else none

/-- `find_landing_pad_ex`. -/
def findLandingPadEx (read : MemRead) (lsdaVa : ℕ) (bases : LsdaBases) (controlPc : ℕ)
    (thrownTypeinfo : Option ℕ) : Option LandingPadMatch := do
  let h ← readHeader read bases lsdaVa
  let csEnd := satAdd h.csStart h.csLen
  let e : ActionEnv := ⟨read, bases, csEnd, h.ttypeBase, h.ttypeEnc, thrownTypeinfo⟩
  siteLoop read (h.csEnc &&& 0x0f) csEnd (catchSite e h controlPc) (csEnd - h.csStart) h.csStart

/-- `find_cleanup_landing_pad`. -/
def findCleanupLandingPad (read : MemRead) (lsdaVa : ℕ) (bases : LsdaBases) (controlPc : ℕ) :
    Option LandingPadMatch := do
  let h ← readHeader read bases lsdaVa
  let csEnd := satAdd h.csStart h.csLen
  siteLoop read (h.csEnc &&& 0x0f) csEnd (cleanupSite h controlPc) (csEnd - h.csStart) h.csStart

end Wie
