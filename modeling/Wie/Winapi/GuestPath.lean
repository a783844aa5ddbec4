import Wie.Lib.Text

/-!
# Guest paths on the host

A guest path names a drive and the directories below its root. Drive `C` is in the bottle and drive
`D` is a directory of the host that the user may give; there are no others. The components of the
guest path are put at the end of the host path of the drive one by one.

A path from the guest is either used as it is or first resolved against the current directory. Only
resolving collapses `..`; the mapping refuses it. What resolving returns is a text like any other, so
nothing it leaves in it can matter to where the mapping ends up.

## Main definitions

* `resolveFullWindowsPath` — a path against the current directory
* `guestPathToHost` — the host path of a guest path
* `VolumeConfig.IsRoot`, `PlainComponent` — what host paths are made of

## Main results

* `guestPathToHost_confined` — host paths are the root of their drive and plain components below it
-/

namespace Wie

/-! ### Guest paths -/

/-- The separator of the guest. -/
def BACKSLASH : Char := Char.ofNat 0x5c

/-- The quotes around a path. -/
def QUOTE : Char := Char.ofNat 0x22

/-- `strip_extended_prefix`. -/
def stripExtendedPrefix (path : List Char) : List Char :=
  let p := trim path
  match stripPrefix [BACKSLASH, BACKSLASH, '?', BACKSLASH] p with
  | some rest => rest
  | none =>
    match stripPrefix ['/', '/', '?', '/'] p with
    | some rest => rest
    | none => p

/-- `normalize_windows_path_separators`. -/
def normalizeWindowsPathSeparators (path : List Char) : List Char :=
  path.map fun c => if c = '/' then BACKSLASH else c

/-- Whether byte `i` is the ASCII character `c`. -/
def byteIs (path : List Char) (i : ℕ) (c : Char) : Bool :=
  (asBytes path)[i]? = some (UInt8.ofNat c.toNat)

/-- Whether the first byte is an ASCII letter. -/
def startsWithLetter (path : List Char) : Bool :=
  match (asBytes path)[0]? with
  | some b => (Char.ofNat b.toNat).isAlpha
  | none => false

/-- `is_windows_absolute_path`. -/
def isWindowsAbsolutePath (path : List Char) : Bool :=
  let hasDrivePrefix := byteIs path 1 ':' && (byteIs path 2 BACKSLASH || byteIs path 2 '/')
  let hasUncPrefix := byteIs path 0 BACKSLASH && byteIs path 1 BACKSLASH
  hasDrivePrefix || hasUncPrefix

/-- `join_windows_path`. -/
def joinWindowsPath (base relative : List Char) : List Char :=
  let joined := base.rdropWhile fun c => c = BACKSLASH ∨ c = '/'
  (if joined = [] then joined else joined ++ [BACKSLASH]) ++ relative

/-- What `normalize_windows_path_components` does with one component. -/
def collapse (components : List (List Char)) (component : List Char) : List (List Char) :=
  if component = [] ∨ component = ['.'] then components
  else if component = ['.', '.'] then components.dropLast
  else components ++ [component]

/-- `normalize_windows_path_components`. -/
def normalizeWindowsPathComponents (path : List Char) : List Char :=
  let normalized := normalizeWindowsPathSeparators path
  let (pre, remainder) :=
    if byteIs normalized 1 ':' then
      let drive := match splitAtByte normalized 2 with
        | some (drive, _) => drive.map Char.toUpper
        | none => []
      let remainder := match splitAtByte normalized 2 with
        | some (_, remainder) => remainder
        | none => []
      if remainder.head? = some BACKSLASH then
        (drive ++ [BACKSLASH], remainder.dropWhile (· = BACKSLASH))
      else (drive, remainder)
    else
      match stripPrefix [BACKSLASH, BACKSLASH] normalized with
      | some remainder => ([BACKSLASH, BACKSLASH], remainder)
      | none => ([], normalized)
  ((remainder.splitOn BACKSLASH).foldl collapse []).foldl
    (fun result component =>
      (if result ≠ [] ∧ result.getLast? ≠ some BACKSLASH then result ++ [BACKSLASH] else result) ++
        component) pre

/-- `paths_equal_ci`. -/
def pathsEqualCi (a b : List Char) : Bool :=
  toAsciiLowercase (normalizeWindowsPathComponents a) =
    toAsciiLowercase (normalizeWindowsPathComponents b)

/-- `looks_like_drive_relative`. -/
def looksLikeDriveRelative (path : List Char) : Bool :=
  2 ≤ (asBytes path).length && byteIs path 1 ':' && startsWithLetter path && !byteIs path 2 BACKSLASH

/-- `resolve_full_windows_path`. -/
def resolveFullWindowsPath (currentDirectory inputPath : List Char) : List Char :=
  let stripped := stripExtendedPrefix (trimMatches (· = QUOTE) (trim inputPath))
  let normalizedInput := normalizeWindowsPathSeparators stripped
  let cwd := normalizeWindowsPathSeparators currentDirectory
  let combined :=
    if isWindowsAbsolutePath normalizedInput then normalizedInput
    else if looksLikeDriveRelative normalizedInput then
      let drive := ((splitAtByte normalizedInput 2).map (·.1)).getD ['C', ':']
      let rest := ((splitAtByte normalizedInput 2).map (·.2)).getD []
      if rest.head? = some BACKSLASH then drive ++ rest
      else if rest = [] then drive ++ [BACKSLASH]
      else drive ++ BACKSLASH :: rest
    else if normalizedInput.head? = some BACKSLASH then
      let drive := (((splitAtByte cwd 2).map (·.1)).filter fun d => byteIs d 1 ':').getD ['C', ':']
      drive ++ normalizedInput
    else joinWindowsPath cwd normalizedInput
  normalizeWindowsPathComponents combined

/-! ### The mapping -/

/-- `VolumeConfig`. -/
structure VolumeConfig where
  /-- The bottle; drive `C` is a directory in it. -/
  bottleRoot : Option (List UInt8)
  /-- Drive `D`. -/
  driveDRoot : Option (List UInt8)

/-- `HostMap`. -/
structure HostMap where
  /-- The path on the host. -/
  host : List UInt8
  /-- The drive it is on. -/
  drive : Char
deriving DecidableEq

/-- `drive_letter`. -/
def driveLetter (path : List Char) : Option Char :=
  let norm := normalizeWindowsPathSeparators path
  if 2 ≤ (asBytes norm).length && byteIs norm 1 ':' && startsWithLetter norm then
    (asBytes norm)[0]?.map fun b => (Char.ofNat b.toNat).toUpper
  else none

/-- `relative_after_drive`. -/
def relativeAfterDrive (normalized : List Char) (drive : Char) : Option (List Char) :=
  let lower := normalized.map Char.toLower
  if [drive.toLower, ':', BACKSLASH].isPrefixOf lower then
    (splitAtByte normalized 3).map (·.2)
  else if lower = [drive.toLower, ':'] then some []
  else none

/-- The directory of drive `C` in the bottle. -/
def DRIVE_C : List UInt8 := asBytes ['d', 'r', 'i', 'v', 'e', '_', 'c']

/-- The host path of the root of a drive. -/
def hostRoot (volumes : VolumeConfig) (drive : Char) : Option (List UInt8) :=
  if drive = 'C' then volumes.bottleRoot.map (pushPath · DRIVE_C)
  else if drive = 'D' then volumes.driveDRoot
  else none

/-- The loop of `guest_path_to_host`: the components one by one. -/
def pushComponents (host : List UInt8) (components : List (List Char)) : Option (List UInt8) :=
  components.foldlM (fun host component =>
    if '/' ∈ component ∨ BACKSLASH ∈ component then none
    else some (pushPath host (asBytes component))) host

/-- `guest_path_to_host`. -/
def guestPathToHost (volumes : VolumeConfig) (guestPath : List Char) : Option HostMap := do
  let trimmed := trimMatches (· = QUOTE) (trim guestPath)
  let sepNorm := normalizeWindowsPathSeparators trimmed
  let drive ← driveLetter sepNorm
  let relative ← relativeAfterDrive sepNorm drive
  if ['.', '.'] ∈ relative.splitOn BACKSLASH then none
  else do
    let root ← hostRoot volumes drive
    let host ← pushComponents root
      ((relative.splitOn BACKSLASH).filter fun c => c ≠ [] ∧ c ≠ ['.'])
    some ⟨host, drive⟩

/-! ### Confinement -/

variable {volumes : VolumeConfig} {root host : List UInt8} {components : List (List Char)}

/-- `root` is the root of the drive: `drive_c` in the bottle for `C`, and the directory that was
given for `D`. No other letter has a root. -/
def VolumeConfig.IsRoot (volumes : VolumeConfig) (drive : Char) (root : List UInt8) : Prop :=
  (drive = 'C' ∧ ∃ bottle, volumes.bottleRoot = some bottle ∧ root = joinPath bottle DRIVE_C) ∨
    (drive = 'D' ∧ volumes.driveDRoot = some root)

/-- A component that names something in the directory it is in. -/
structure PlainComponent (c : List Char) : Prop where
  ne_nil : c ≠ []
  ne_dot : c ≠ ['.']
  ne_dotdot : c ≠ ['.', '.']
  notMem_slash : '/' ∉ c
  notMem_backslash : BACKSLASH ∉ c

theorem hostRoot_eq_some {drive : Char} (h : hostRoot volumes drive = some root) :
    volumes.IsRoot drive root := by
  rw [hostRoot] at h
  split_ifs at h with hC hD
  · obtain ⟨bottle, hb, rfl⟩ := Option.map_eq_some_iff.mp h
    exact .inl ⟨hC, bottle, hb, pushPath_of_notMem (by decide)⟩
  · exact .inr ⟨hD, h⟩

/-- The loop puts the components at the end, none of which has a separator. -/
theorem pushComponents_eq_some (h : pushComponents root components = some host) :
    (∀ c ∈ components, '/' ∉ c ∧ BACKSLASH ∉ c) ∧
      host = (components.map asBytes).foldl joinPath root := by
  induction components generalizing root with
  | nil =>
    rw [pushComponents, List.foldlM_nil] at h
    exact ⟨fun c hc => absurd hc List.not_mem_nil, (Option.some.inj h).symm⟩
  | cons c components ih =>
    rw [pushComponents, List.foldlM_cons] at h
    split_ifs at h with hsep
    · exact absurd h.symm (Option.some_ne_none _)
    · obtain ⟨hslash, hback⟩ := not_or.mp hsep
      obtain ⟨hrest, hhost⟩ := ih h
      rw [pushPath_of_notMem (slash_notMem_asBytes hslash)] at hhost
      exact ⟨List.forall_mem_cons.mpr ⟨⟨hslash, hback⟩, hrest⟩, hhost⟩

/-- Plain components are the last segments of a path they are put at the end of. -/
theorem segments_foldl_joinPath (hc : ∀ c ∈ components, PlainComponent c) :
    segments ((components.map asBytes).foldl joinPath root) =
      segments root ++ components.map asBytes := by
  induction components generalizing root with
  | nil => exact (List.append_nil _).symm
  | cons c components ih =>
    obtain ⟨hp, hrest⟩ := List.forall_mem_cons.mp hc
    rw [List.map_cons, List.foldl_cons, ih hrest,
      segments_joinPath root (asBytes_ne_nil hp.ne_nil) (slash_notMem_asBytes hp.notMem_slash),
      List.append_assoc, List.singleton_append]

/-- A path that is mapped has no `..`, and its components are mapped below the root of its drive. -/
theorem guestPathToHost_eq_some {guestPath : List Char} {m : HostMap}
    (h : guestPathToHost volumes guestPath = some m) :
    ∃ (relative : List Char) (root : List UInt8),
      ['.', '.'] ∉ relative.splitOn BACKSLASH ∧ hostRoot volumes m.drive = some root ∧
        pushComponents root
          ((relative.splitOn BACKSLASH).filter fun c => c ≠ [] ∧ c ≠ ['.']) = some m.host := by
  simp only [guestPathToHost, Option.bind_eq_bind, Option.bind_eq_some_iff] at h
  obtain ⟨drive, -, relative, -, h⟩ := h
  split_ifs at h with hdots
  · simp only [Option.bind_eq_some_iff, Option.some.injEq] at h
    obtain ⟨root, hroot, host, hhost, rfl⟩ := h
    exact ⟨relative, root, hdots, hroot, hhost⟩

/-- The host path is the root of its drive followed by plain components, which are also its segments
after those of the root. -/
def HostMap.Confined (volumes : VolumeConfig) (m : HostMap) : Prop :=
  ∃ (root : List UInt8) (components : List (List Char)),
    volumes.IsRoot m.drive root ∧ (∀ c ∈ components, PlainComponent c) ∧
      m.host = (components.map asBytes).foldl joinPath root ∧
      segments m.host = segments root ++ components.map asBytes

theorem HostMap.Confined.of_mapped {guestPath : List Char} {m : HostMap}
    (h : guestPathToHost volumes guestPath = some m) : m.Confined volumes := by
  obtain ⟨relative, root, hdots, hroot, hhost⟩ := guestPathToHost_eq_some h
  obtain ⟨hsep, hfold⟩ := pushComponents_eq_some hhost
  have hplain : ∀ c ∈ (relative.splitOn BACKSLASH).filter fun c => c ≠ [] ∧ c ≠ ['.'],
      PlainComponent c := by
    intro c hc
    obtain ⟨hmem, hne⟩ := List.mem_filter.mp hc
    obtain ⟨hnil, hdot⟩ := of_decide_eq_true hne
    obtain ⟨hslash, hback⟩ := hsep c hc
    exact ⟨hnil, hdot, fun he => hdots (he ▸ hmem), hslash, hback⟩
  refine ⟨root, _, hostRoot_eq_some hroot, hplain, hfold, ?_⟩
  rw [hfold]
  exact segments_foldl_joinPath hplain

/-- **Guest paths do not leave their drive**, whether they are used as they are or resolved first. -/
theorem guestPathToHost_confined (volumes : VolumeConfig) (cwd path : List Char) (m : HostMap)
    (h : guestPathToHost volumes path = some m ∨
      guestPathToHost volumes (resolveFullWindowsPath cwd path) = some m) :
    m.Confined volumes :=
  h.elim HostMap.Confined.of_mapped HostMap.Confined.of_mapped

/-- The file `App` in the bottle `/b`, from a directory next to it. -/
theorem confined_app :
    HostMap.Confined ⟨some (asBytes ['/', 'b']), none⟩
      ⟨asBytes ['/', 'b', '/', 'd', 'r', 'i', 'v', 'e', '_', 'c', '/', 'A'], 'C'⟩ :=
  guestPathToHost_confined _ ['c', ':', BACKSLASH, 'x'] ['.', '.', '/', 'A'] _
    (.inr (by decide +kernel))

end Wie
