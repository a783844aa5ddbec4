import Wie.Winapi.GuestPath

/-!
# Directory listings

What is at a guest path, and what a guest directory lists. Five sources answer both questions:
directories that always exist, the main module, files of the host that are mounted at a guest path,
files that exist in the emulator only, and the directories of the host under the drives. To say what
is at a path the first source that knows it is asked; a listing takes the entries of all of them.

So an entry of one source may stand for a path that an earlier source answers for. And a listing
looks at less than the question about the path does: at an entry of the host and not at what it
links to, at no more than the size of what is mounted, and at a directory that always exists without
looking for a separator after the name of the directory listed.

## Main definitions

* `HostFs` — the file system of the host
* `ResolveCtx`, `statPath`, `listDir` — the sources, what is at a path, what is in a directory
* `Lists` — the entries, source by source
* `Truthful` — no entry is answered for otherwise
* `ListingAgrees` — what a listing says is what is there

## Main results

* `listingAgrees_iff` — listings agree with what is there if they are truthful, and only then
-/

namespace Wie

/-! ### More about guest paths -/

/-- A separator. -/
def isSeparator (c : Char) : Bool := c = BACKSLASH ∨ c = '/'

/-- `eq_ignore_ascii_case`. -/
def eqIgnoreAsciiCase (a b : List Char) : Bool := toAsciiLowercase a = toAsciiLowercase b

/-- `guest_basename`. -/
def guestBasename (path : List Char) : List Char := path.rtakeWhile fun c => !isSeparator c

/-- `trim_end_matches` of backslashes. -/
def trimBackslashes (path : List Char) : List Char := path.rdropWhile (· = BACKSLASH)

/-- `trim_end_matches` of separators. -/
def trimSeparators (path : List Char) : List Char := path.rdropWhile isSeparator

/-- `guest_parent`. -/
def guestParent (path : List Char) : List Char :=
  let norm := normalizeWindowsPathComponents path
  if BACKSLASH ∈ norm then
    let parent := norm.rdropWhile (· ≠ BACKSLASH)
    if (asBytes parent).length ≤ 3 ∧ byteIs parent 1 ':' then
      trimBackslashes parent ++ [BACKSLASH]
    else trimBackslashes parent
  else norm

/-! ### The host and the sources -/

/-- What the host says about a file. -/
structure HostMeta where
  /-- It is a directory. -/
  isDir : Bool
  /-- It is a regular file. -/
  isFile : Bool
  /-- Its length. -/
  len : ℕ
deriving DecidableEq

/-- An entry of a directory of the host. -/
structure HostDirEnt where
  /-- The name, in bytes. -/
  fileName : List UInt8
  /-- What the host says about the entry itself, which may be a link. -/
  metadata : Option HostMeta
deriving DecidableEq

/-- The file system of the host. -/
structure HostFs where
  /-- `fs::metadata`, of what a path leads to. -/
  metadata : List UInt8 → Option HostMeta
  /-- `fs::read_dir`, without the entries that cannot be read. -/
  readDir : List UInt8 → Option (List HostDirEnt)

/-- `FILE_ATTRIBUTE_DIRECTORY`. -/
def FILE_ATTRIBUTE_DIRECTORY : ℕ := 0x10

/-- `FILE_ATTRIBUTE_ARCHIVE`. -/
def FILE_ATTRIBUTE_ARCHIVE : ℕ := 0x20

/-- `FILE_ATTRIBUTE_NORMAL`. -/
def FILE_ATTRIBUTE_NORMAL : ℕ := 0x80

/-- `PathKind`. -/
inductive PathKind
  | notFound | file | directory
deriving DecidableEq

/-- `PathStat`. -/
structure PathStat where
  /-- What is there. -/
  kind : PathKind
  /-- Its size. -/
  size : ℕ
  /-- Its attributes. -/
  attributes : ℕ
deriving DecidableEq

/-- `DirEntry`. -/
structure DirEntry where
  /-- The name. -/
  name : List Char
  /-- The attributes. -/
  attributes : ℕ
  /-- The size. -/
  size : ℕ
deriving DecidableEq

/-- `ResolveCtx`. -/
structure ResolveCtx where
  /-- The drives. -/
  volumes : VolumeConfig
  /-- Where the main module is. -/
  mainModulePath : List Char
  /-- Its name. -/
  mainModuleFileName : List Char
  /-- Files of the host, each at a guest path. -/
  hostFileMounts : List (List Char × List UInt8)
  /-- Files of the emulator, with their sizes. -/
  virtualFiles : List (List Char × ℕ)
  /-- Directories that always exist. -/
  syntheticDirs : List (List Char)

namespace ResolveCtx

variable (ctx : ResolveCtx)

/-- `path_is_main_module`. -/
def pathIsMainModule (path : List Char) : Bool :=
  pathsEqualCi path ctx.mainModulePath ||
    eqIgnoreAsciiCase (guestBasename path) ctx.mainModuleFileName

/-- `is_synthetic_dir`: a synthetic directory or one on the way to it. -/
def isSyntheticDir (path : List Char) : Bool :=
  let trimmed := trimSeparators path
  ctx.syntheticDirs.any (fun d => pathsEqualCi trimmed d) ||
    ctx.syntheticDirs.any fun d =>
      match stripPrefix (toAsciiLowercase trimmed) (toAsciiLowercase (trimBackslashes d)) with
      | some rest => rest = [] ∨ rest.head? = some BACKSLASH
      | none => false

/-- The first mount at a path. -/
def mountAt (path : List Char) : Option (List UInt8) :=
  (ctx.hostFileMounts.find? fun m => pathsEqualCi path m.1).map (·.2)

/-- The size of the first virtual file at a path. -/
def virtualAt (path : List Char) : Option ℕ :=
  (ctx.virtualFiles.find? fun v => pathsEqualCi path v.1).map (·.2)

end ResolveCtx

/-- `is_drive_root`. -/
def isDriveRoot (path : List Char) : Bool :=
  let p := trimSeparators path
  (asBytes p).length = 2 && byteIs p 1 ':' && startsWithLetter p

/-- Nothing is there. -/
def notFoundStat : PathStat := ⟨.notFound, 0, 0⟩

/-- A directory is there. -/
def directoryStat : PathStat := ⟨.directory, 0, FILE_ATTRIBUTE_DIRECTORY⟩

/-- `stat_host_path`. -/
def statHostPath (fs : HostFs) (host : List UInt8) : PathStat :=
  match fs.metadata host with
  | some m =>
    if m.isDir then directoryStat
    else if m.isFile then ⟨.file, m.len, FILE_ATTRIBUTE_ARCHIVE ||| FILE_ATTRIBUTE_NORMAL⟩
    else notFoundStat
  | none => notFoundStat

/-- `stat_path`. -/
def statPath (fs : HostFs) (ctx : ResolveCtx) (fullPath : List Char) : PathStat :=
  if fullPath = [] then notFoundStat
  else
    let norm := trimBackslashes fullPath
    if isDriveRoot fullPath || ctx.isSyntheticDir fullPath then directoryStat
    else if ctx.pathIsMainModule fullPath then ⟨.file, 0, FILE_ATTRIBUTE_ARCHIVE⟩
    else
      match ctx.mountAt fullPath with
      | some host => statHostPath fs host
      | none =>
        match ctx.virtualAt fullPath with
        | some size => ⟨.file, size, FILE_ATTRIBUTE_ARCHIVE⟩
        | none =>
          match guestPathToHost ctx.volumes fullPath with
          | some map => statHostPath fs map.host
          | none =>
            if (fullPath.getLast?.any isSeparator) && ctx.isSyntheticDir norm then directoryStat
            else notFoundStat

/-! ### The listing -/

/-- The entries of the host in a directory. -/
def hostEntries (fs : HostFs) (ctx : ResolveCtx) (dirPath : List Char) : List DirEntry :=
  match guestPathToHost ctx.volumes dirPath with
  | none => []
  | some map =>
    if (fs.metadata map.host).any (·.isDir) then
      match fs.readDir map.host with
      | none => []
      | some rd => rd.map fun ent =>
        ⟨fromUtf8Lossy ent.fileName,
          if ent.metadata.any (·.isDir) then FILE_ATTRIBUTE_DIRECTORY else FILE_ATTRIBUTE_ARCHIVE,
          (ent.metadata.map (·.len)).getD 0⟩
    else []

/-- Whether a guest file is in a directory. -/
def inDir (dirPath guest : List Char) : Bool :=
  pathsEqualCi (guestParent guest) (trimBackslashes dirPath) ||
    pathsEqualCi (guestParent guest) dirPath

/-- The virtual files in a directory. -/
def virtualEntries (ctx : ResolveCtx) (dirPath : List Char) : List DirEntry :=
  (ctx.virtualFiles.filter fun v => inDir dirPath v.1).map fun v =>
    ⟨guestBasename v.1, FILE_ATTRIBUTE_ARCHIVE, v.2⟩

/-- The mounts in a directory. -/
def mountEntries (fs : HostFs) (ctx : ResolveCtx) (dirPath : List Char) : List DirEntry :=
  (ctx.hostFileMounts.filter fun m => inDir dirPath m.1).map fun m =>
    ⟨guestBasename m.1, FILE_ATTRIBUTE_ARCHIVE, ((fs.metadata m.2).map (·.len)).getD 0⟩

/-- Whether a name is in a listing. -/
def hasName (entries : List DirEntry) (name : List Char) : Bool :=
  entries.any fun e => eqIgnoreAsciiCase e.name name

/-- An entry at the end, if it is wanted and its name is new. -/
def addNew (wanted : Bool) (e : DirEntry) (entries : List DirEntry) : List DirEntry :=
  if wanted && !hasName entries e.name then entries ++ [e] else entries

/-- The main module, if it is in the directory. -/
def addMain (ctx : ResolveCtx) (dirPath : List Char) (entries : List DirEntry) : List DirEntry :=
  addNew (ctx.mainModulePath ≠ [] && inDir dirPath ctx.mainModulePath)
    ⟨ctx.mainModuleFileName, FILE_ATTRIBUTE_ARCHIVE, 0⟩ entries

/-- Whether a synthetic directory goes on from a directory with one more component. -/
def isChild (dirPath d : List Char) : Bool :=
  match stripPrefix (toAsciiLowercase (trimBackslashes dirPath))
      (toAsciiLowercase (trimBackslashes d)) with
  | none => false
  | some rest =>
    let rest := rest.dropWhile (· = BACKSLASH)
    rest ≠ [] && !rest.contains BACKSLASH

/-- A synthetic directory, if it is in the directory. -/
def addSynthetic (dirPath : List Char) (entries : List DirEntry) (d : List Char) : List DirEntry :=
  addNew (isChild dirPath d) ⟨guestBasename d, FILE_ATTRIBUTE_DIRECTORY, 0⟩ entries

/-- The first two entries. -/
def dotEntries : List DirEntry :=
  [⟨['.'], FILE_ATTRIBUTE_DIRECTORY, 0⟩, ⟨['.', '.'], FILE_ATTRIBUTE_DIRECTORY, 0⟩]

/-- `list_dir`. -/
def listDir (fs : HostFs) (ctx : ResolveCtx) (dirPath : List Char) : List DirEntry :=
  if (statPath fs ctx dirPath).kind ≠ .directory then []
  else
    ctx.syntheticDirs.foldl (addSynthetic dirPath)
      (addMain ctx dirPath (dotEntries ++ hostEntries fs ctx dirPath ++
        virtualEntries ctx dirPath ++ mountEntries fs ctx dirPath))

/-! ### What a listing holds -/

/-- The entry says that it is a directory. -/
def DirEntry.isDir (e : DirEntry) : Bool := e.attributes &&& FILE_ATTRIBUTE_DIRECTORY ≠ 0

/-- Where an entry of a directory is. -/
abbrev entryPath (dirPath name : List Char) : List Char := joinWindowsPath dirPath name

/-- What is in a directory, with the name and whether it is a directory: entries of the host,
virtual files and mounts. -/
inductive Holds (fs : HostFs) (ctx : ResolveCtx) (dirPath : List Char) : List Char → Bool → Prop
  /-- An entry of the host directory. -/
  | host {map rd ent} : guestPathToHost ctx.volumes dirPath = some map →
    (fs.metadata map.host).any (·.isDir) = true → fs.readDir map.host = some rd → ent ∈ rd →
    Holds fs ctx dirPath (fromUtf8Lossy ent.fileName) (ent.metadata.any (·.isDir))
  /-- A virtual file. -/
  | virtual {v} : v ∈ ctx.virtualFiles → inDir dirPath v.1 = true →
    Holds fs ctx dirPath (guestBasename v.1) false
  /-- A mount, whatever it is on the host. -/
  | mount {m} : m ∈ ctx.hostFileMounts → inDir dirPath m.1 = true →
    Holds fs ctx dirPath (guestBasename m.1) false

/-- The main module is in the directory. -/
def MainIn (ctx : ResolveCtx) (dirPath : List Char) : Prop :=
  ctx.mainModulePath ≠ [] ∧ inDir dirPath ctx.mainModulePath = true

/-- The entries of a listing, without the first two. The main module and the synthetic directories
are listed only under names that are new. -/
inductive Lists (fs : HostFs) (ctx : ResolveCtx) (dirPath : List Char) : List Char → Bool → Prop
  /-- What is in the directory. -/
  | holds {n b} : Holds fs ctx dirPath n b → Lists fs ctx dirPath n b
  /-- The main module. -/
  | main : MainIn ctx dirPath → hasName dotEntries ctx.mainModuleFileName = false →
    (∀ n b, Holds fs ctx dirPath n b → eqIgnoreAsciiCase n ctx.mainModuleFileName = false) →
    Lists fs ctx dirPath ctx.mainModuleFileName false
  /-- The first synthetic directory of a name. -/
  | synthetic {pre d post} : ctx.syntheticDirs = pre ++ d :: post → isChild dirPath d = true →
    hasName dotEntries (guestBasename d) = false →
    (∀ n b, Holds fs ctx dirPath n b → eqIgnoreAsciiCase n (guestBasename d) = false) →
    (MainIn ctx dirPath → eqIgnoreAsciiCase ctx.mainModuleFileName (guestBasename d) = false) →
    (∀ d' ∈ pre, isChild dirPath d' = true →
      eqIgnoreAsciiCase (guestBasename d') (guestBasename d) = false) →
    Lists fs ctx dirPath (guestBasename d) true

section Entries

variable {fs : HostFs} {ctx : ResolveCtx} {dirPath name : List Char} {entries : List DirEntry}

theorem hasName_eq_false : hasName entries name = false ↔
    ∀ e ∈ entries, eqIgnoreAsciiCase e.name name = false := by
  rw [hasName, List.any_eq_false]
  simp

theorem eqIgnoreAsciiCase_trans {a b c : List Char} (h : eqIgnoreAsciiCase a b = true)
    (h' : eqIgnoreAsciiCase b c = true) : eqIgnoreAsciiCase a c = true :=
  decide_eq_true ((of_decide_eq_true h).trans (of_decide_eq_true h'))

variable {wanted : Bool} {e x : DirEntry}

theorem mem_addNew : x ∈ addNew wanted e entries ↔
    x ∈ entries ∨ wanted = true ∧ hasName entries e.name = false ∧ x = e := by
  rw [addNew]
  by_cases hadd : (wanted && !hasName entries e.name) = true
  · rw [if_pos hadd, List.mem_append, List.mem_singleton]
    rw [Bool.and_eq_true, Bool.not_eq_true'] at hadd
    exact or_congr Iff.rfl ⟨fun h => ⟨hadd.1, hadd.2, h⟩, fun h => h.2.2⟩
  · rw [if_neg hadd]
    refine ⟨.inl, fun h => h.elim id fun h => absurd ?_ hadd⟩
    rw [Bool.and_eq_true, Bool.not_eq_true']
    exact ⟨h.1, h.2.1⟩

/-- The names that are new afterwards. -/
theorem hasName_addNew : hasName (addNew wanted e entries) name = false ↔
    hasName entries name = false ∧ (wanted = true → eqIgnoreAsciiCase e.name name = false) := by
  constructor
  · intro h
    rw [hasName_eq_false] at h
    have hold : ∀ x ∈ entries, eqIgnoreAsciiCase x.name name = false := fun x hx =>
      h x (mem_addNew.mpr (.inl hx))
    refine ⟨hasName_eq_false.mpr hold, fun hw => ?_⟩
    by_cases hnew : hasName entries e.name = false
    · exact h e (mem_addNew.mpr (.inr ⟨hw, hnew, rfl⟩))
    · -- the name was taken, and so another like it would be
      obtain ⟨x, hx, hname⟩ := List.any_eq_true.mp (eq_true_of_ne_false hnew)
      by_contra heq
      have hfalse := hold x hx
      rw [eqIgnoreAsciiCase_trans hname (eq_true_of_ne_false heq)] at hfalse
      cases hfalse
  · rintro ⟨h, he⟩
    rw [hasName_eq_false] at h ⊢
    intro x hx
    rcases mem_addNew.mp hx with hx | ⟨hw, -, rfl⟩
    · exact h x hx
    · exact he hw

/-- The synthetic directories that are added. -/
theorem mem_foldl_addSynthetic : ∀ (ds : List (List Char)) {entries : List DirEntry},
    x ∈ ds.foldl (addSynthetic dirPath) entries ↔ x ∈ entries ∨
      ∃ pre d post, ds = pre ++ d :: post ∧ isChild dirPath d = true ∧
        hasName entries (guestBasename d) = false ∧
        (∀ d' ∈ pre, isChild dirPath d' = true →
          eqIgnoreAsciiCase (guestBasename d') (guestBasename d) = false) ∧
        x = ⟨guestBasename d, FILE_ATTRIBUTE_DIRECTORY, 0⟩ := by
  intro ds
  induction ds with
  | nil =>
    intro entries
    refine ⟨.inl, fun h => h.elim id ?_⟩
    rintro ⟨pre, d, post, h, -⟩
    exact absurd h.symm (by simp)
  | cons d ds ih =>
    intro entries
    rw [List.foldl_cons, ih, addSynthetic, mem_addNew]
    constructor
    · rintro ((h | ⟨hc, hnew, rfl⟩) | ⟨pre, d', post, rfl, hc, hnew, hpre, rfl⟩)
      · exact .inl h
      · exact .inr ⟨[], d, ds, rfl, hc, hnew, fun d' hd' => absurd hd' List.not_mem_nil, rfl⟩
      · obtain ⟨hnew, hd⟩ := hasName_addNew.mp hnew
        exact .inr ⟨d :: pre, d', post, rfl, hc, hnew, List.forall_mem_cons.mpr ⟨hd, hpre⟩, rfl⟩
    · rintro (h | ⟨pre, d', post, hds, hc, hnew, hpre, rfl⟩)
      · exact .inl (.inl h)
      · cases pre with
        | nil =>
          obtain ⟨rfl, rfl⟩ := List.cons.inj hds
          exact .inl (.inr ⟨hc, hnew, rfl⟩)
        | cons d₀ pre =>
          obtain ⟨rfl, rfl⟩ := List.cons.inj hds
          obtain ⟨hd, hpre⟩ := List.forall_mem_cons.mp hpre
          exact .inr ⟨pre, d', post, rfl, hc, hasName_addNew.mpr ⟨hnew, hd⟩, hpre, rfl⟩

@[simp] theorem isDir_archive (n : List Char) (size : ℕ) :
    DirEntry.isDir ⟨n, FILE_ATTRIBUTE_ARCHIVE, size⟩ = false := by
  change decide (FILE_ATTRIBUTE_ARCHIVE &&& FILE_ATTRIBUTE_DIRECTORY ≠ 0) = false
  decide

@[simp] theorem isDir_directory (n : List Char) (size : ℕ) :
    DirEntry.isDir ⟨n, FILE_ATTRIBUTE_DIRECTORY, size⟩ = true := by
  change decide (FILE_ATTRIBUTE_DIRECTORY &&& FILE_ATTRIBUTE_DIRECTORY ≠ 0) = true
  decide

/-- What the first three sources list. -/
def heldEntries (fs : HostFs) (ctx : ResolveCtx) (dirPath : List Char) : List DirEntry :=
  hostEntries fs ctx dirPath ++ virtualEntries ctx dirPath ++ mountEntries fs ctx dirPath

theorem mem_hostEntries : x ∈ hostEntries fs ctx dirPath ↔
    ∃ map rd ent, guestPathToHost ctx.volumes dirPath = some map ∧
      (fs.metadata map.host).any (·.isDir) = true ∧ fs.readDir map.host = some rd ∧ ent ∈ rd ∧
      x = ⟨fromUtf8Lossy ent.fileName,
        if ent.metadata.any (·.isDir) then FILE_ATTRIBUTE_DIRECTORY else FILE_ATTRIBUTE_ARCHIVE,
        (ent.metadata.map (·.len)).getD 0⟩ := by
  rw [hostEntries]
  constructor
  · intro h
    cases hmap : guestPathToHost ctx.volumes dirPath with
    | none =>
      rw [hmap] at h
      exact absurd h List.not_mem_nil
    | some map =>
      rw [hmap] at h
      dsimp only at h
      split_ifs at h with hdir
      · cases hrd : fs.readDir map.host with
        | none =>
          rw [hrd] at h
          exact absurd h List.not_mem_nil
        | some rd =>
          rw [hrd] at h
          obtain ⟨ent, hent, rfl⟩ := List.mem_map.mp h
          exact ⟨map, rd, ent, rfl, hdir, hrd, hent, rfl⟩
      · exact absurd h List.not_mem_nil
  · rintro ⟨map, rd, ent, hmap, hdir, hrd, hent, rfl⟩
    rw [hmap]
    dsimp only
    rw [if_pos hdir, hrd]
    exact List.mem_map.mpr ⟨ent, hent, rfl⟩

theorem isDir_host (n : List Char) (size : ℕ) (b : Bool) :
    DirEntry.isDir
      ⟨n, if b = true then FILE_ATTRIBUTE_DIRECTORY else FILE_ATTRIBUTE_ARCHIVE, size⟩ = b := by
  cases b
  · exact isDir_archive n size
  · exact isDir_directory n size

theorem holds_iff {b : Bool} : Holds fs ctx dirPath name b ↔
    ∃ e ∈ heldEntries fs ctx dirPath, e.name = name ∧ e.isDir = b := by
  rw [heldEntries]
  constructor
  · rintro (⟨hmap, hdir, hrd, hent⟩ | ⟨hv, hin⟩ | ⟨hm, hin⟩)
    · refine ⟨_, List.mem_append_left _ (List.mem_append_left _
        (mem_hostEntries.mpr ⟨_, _, _, hmap, hdir, hrd, hent, rfl⟩)), rfl, isDir_host ..⟩
    · refine ⟨_, List.mem_append_left _ (List.mem_append_right _
        (List.mem_map.mpr ⟨_, List.mem_filter.mpr ⟨hv, hin⟩, rfl⟩)), rfl, isDir_archive ..⟩
    · exact ⟨_, List.mem_append_right _ (List.mem_map.mpr ⟨_, List.mem_filter.mpr ⟨hm, hin⟩, rfl⟩),
        rfl, isDir_archive ..⟩
  · rintro ⟨e, he, rfl, rfl⟩
    rcases List.mem_append.mp he with he | he
    · rcases List.mem_append.mp he with he | he
      · obtain ⟨map, rd, ent, hmap, hdir, hrd, hent, rfl⟩ := mem_hostEntries.mp he
        rw [isDir_host]
        exact .host hmap hdir hrd hent
      · obtain ⟨v, hv, rfl⟩ := List.mem_map.mp he
        obtain ⟨hv, hin⟩ := List.mem_filter.mp hv
        rw [isDir_archive]
        exact .virtual hv hin
    · obtain ⟨m, hm, rfl⟩ := List.mem_map.mp he
      obtain ⟨hm, hin⟩ := List.mem_filter.mp hm
      rw [isDir_archive]
      exact .mount hm hin

/-- A name is new among the entries of the first three sources. -/
theorem hasName_held : hasName (dotEntries ++ heldEntries fs ctx dirPath) name = false ↔
    hasName dotEntries name = false ∧
      ∀ n b, Holds fs ctx dirPath n b → eqIgnoreAsciiCase n name = false := by
  rw [hasName, List.any_append, Bool.or_eq_false_iff]
  refine and_congr Iff.rfl ⟨fun h n b hn => ?_, fun h => ?_⟩
  · obtain ⟨e, he, rfl, -⟩ := holds_iff.mp hn
    exact hasName_eq_false.mp h e he
  · exact hasName_eq_false.mpr fun e he => h _ _ (holds_iff.mpr ⟨e, he, rfl, rfl⟩)

theorem mainIn_iff : MainIn ctx dirPath ↔
    (ctx.mainModulePath ≠ [] && inDir dirPath ctx.mainModulePath) = true := by
  rw [MainIn, Bool.and_eq_true, decide_eq_true_iff]

/-- **The entries of a listing.** -/
theorem exists_mem_listDir (hdir : (statPath fs ctx dirPath).kind = .directory) {b : Bool} :
    (∃ e ∈ listDir fs ctx dirPath, e.name = name ∧ e.isDir = b) ↔
      (∃ e ∈ dotEntries, e.name = name ∧ e.isDir = b) ∨ Lists fs ctx dirPath name b := by
  have hlist : listDir fs ctx dirPath = ctx.syntheticDirs.foldl (addSynthetic dirPath)
      (addMain ctx dirPath (dotEntries ++ heldEntries fs ctx dirPath)) := by
    rw [listDir, if_neg (not_not.mpr hdir), heldEntries, List.append_assoc, List.append_assoc,
      List.append_assoc]
  have hnew : ∀ n,
      hasName (addMain ctx dirPath (dotEntries ++ heldEntries fs ctx dirPath)) n = false ↔
        (hasName dotEntries n = false ∧
          ∀ n' b, Holds fs ctx dirPath n' b → eqIgnoreAsciiCase n' n = false) ∧
        (MainIn ctx dirPath → eqIgnoreAsciiCase ctx.mainModuleFileName n = false) := by
    intro n
    rw [addMain, hasName_addNew, hasName_held, mainIn_iff]
  rw [hlist]
  constructor
  · rintro ⟨e, he, rfl, rfl⟩
    rcases (mem_foldl_addSynthetic _).mp he with he | ⟨pre, d, post, hds, hc, hfree, hpre, rfl⟩
    · rcases mem_addNew.mp he with he | ⟨hw, hfree, rfl⟩
      · rcases List.mem_append.mp he with he | he
        · exact .inl ⟨e, he, rfl, rfl⟩
        · exact .inr (.holds (holds_iff.mpr ⟨e, he, rfl, rfl⟩))
      · rw [isDir_archive]
        obtain ⟨hdots, hheld⟩ := hasName_held.mp hfree
        exact .inr (.main (mainIn_iff.mpr hw) hdots hheld)
    · rw [isDir_directory]
      obtain ⟨⟨hdots, hheld⟩, hmain⟩ := (hnew _).mp hfree
      exact .inr (.synthetic hds hc hdots hheld hmain hpre)
  · rintro (⟨e, he, hn, hb⟩ | hl)
    · exact ⟨e, (mem_foldl_addSynthetic _).mpr (.inl (mem_addNew.mpr (.inl
        (List.mem_append_left _ he)))), hn, hb⟩
    · cases hl with
      | holds hh =>
        obtain ⟨e, he, hn, hb⟩ := holds_iff.mp hh
        exact ⟨e, (mem_foldl_addSynthetic _).mpr (.inl (mem_addNew.mpr (.inl
          (List.mem_append_right _ he)))), hn, hb⟩
      | main hm hdots hheld =>
        exact ⟨_, (mem_foldl_addSynthetic _).mpr (.inl (mem_addNew.mpr (.inr
          ⟨mainIn_iff.mp hm, hasName_held.mpr ⟨hdots, hheld⟩, rfl⟩))), rfl, isDir_archive ..⟩
      | synthetic hds hc hdots hheld hmain hpre =>
        exact ⟨_, (mem_foldl_addSynthetic _).mpr (.inr
          ⟨_, _, _, hds, hc, (hnew _).mpr ⟨⟨hdots, hheld⟩, hmain⟩, hpre, rfl⟩), rfl,
          isDir_directory ..⟩

end Entries

/-! ### What is at a path -/

/-- A directory is there, whatever the host has. -/
def ResolveCtx.standing (ctx : ResolveCtx) (path : List Char) : Bool :=
  isDriveRoot path || ctx.isSyntheticDir path

/-- The path of the host that answers for a guest path: what is mounted there, or what the path is
mapped to if there is no virtual file. -/
def ResolveCtx.hostAt (ctx : ResolveCtx) (path : List Char) : Option (List UInt8) :=
  match ctx.mountAt path with
  | some host => some host
  | none =>
    match ctx.virtualAt path with
    | some _ => none
    | none => (guestPathToHost ctx.volumes path).map (·.host)

/-- A directory of the host. -/
def HostFs.isDir (fs : HostFs) (host : List UInt8) : Bool := (fs.metadata host).any (·.isDir)

/-- A regular file of the host. -/
def HostFs.isRegular (fs : HostFs) (host : List UInt8) : Bool :=
  (fs.metadata host).any fun m => !m.isDir && m.isFile

section Stat

variable {fs : HostFs} {ctx : ResolveCtx} {path : List Char}

theorem dropWhile_dropWhile_of_imp {α : Type*} {p q : α → Bool} (h : ∀ a, q a = true → p a = true)
    (l : List α) : (l.dropWhile q).dropWhile p = l.dropWhile p := by
  induction l with
  | nil => rfl
  | cons a l ih =>
    by_cases hq : q a = true
    · rw [List.dropWhile_cons_of_pos hq, List.dropWhile_cons_of_pos (h a hq), ih]
    · rw [List.dropWhile_cons_of_neg hq]

theorem trimSeparators_trimBackslashes (path : List Char) :
    trimSeparators (trimBackslashes path) = trimSeparators path := by
  rw [trimSeparators, trimBackslashes, trimSeparators, List.rdropWhile, List.rdropWhile,
    List.rdropWhile, List.reverse_reverse, dropWhile_dropWhile_of_imp]
  intro c hc
  exact decide_eq_true (.inl (of_decide_eq_true hc))

/-- Backslashes at the end make no difference, so that the last question of `stat_path` has been
answered before. -/
theorem isSyntheticDir_trimBackslashes :
    ctx.isSyntheticDir (trimBackslashes path) = ctx.isSyntheticDir path := by
  rw [ResolveCtx.isSyntheticDir, ResolveCtx.isSyntheticDir, trimSeparators_trimBackslashes]

theorem kind_statHostPath (fs : HostFs) (host : List UInt8) : (statHostPath fs host).kind =
    if fs.isDir host = true then .directory else if fs.isRegular host = true then .file
    else .notFound := by
  rw [statHostPath, HostFs.isDir, HostFs.isRegular]
  cases fs.metadata host with
  | none => rfl
  | some m =>
    obtain ⟨d, f, n⟩ := m
    cases d <;> cases f <;> rfl

theorem kind_statHostPath_eq_file {host : List UInt8} :
    (statHostPath fs host).kind = .file ↔ fs.isRegular host = true := by
  rw [statHostPath, HostFs.isRegular]
  cases fs.metadata host with
  | none => simp [notFoundStat]
  | some m =>
    obtain ⟨d, f, n⟩ := m
    cases d <;> cases f <;> simp [directoryStat, notFoundStat]

/-- **What is at a path.** -/
theorem kind_statPath (fs : HostFs) (ctx : ResolveCtx) (hne : path ≠ []) :
    (statPath fs ctx path).kind =
      if ctx.standing path = true then .directory
      else if ctx.pathIsMainModule path = true then .file
      else
        match ctx.hostAt path with
        | some host => (statHostPath fs host).kind
        | none => if (ctx.virtualAt path).isSome = true then .file else .notFound := by
  rw [statPath, if_neg hne, ResolveCtx.standing]
  dsimp only
  by_cases hs : (isDriveRoot path || ctx.isSyntheticDir path) = true
  · rw [if_pos hs, if_pos hs]
    rfl
  rw [if_neg hs, if_neg hs]
  by_cases hm : ctx.pathIsMainModule path = true
  · rw [if_pos hm, if_pos hm]
  rw [if_neg hm, if_neg hm, ResolveCtx.hostAt]
  cases ctx.mountAt path with
  | some host => rfl
  | none =>
    cases hv : ctx.virtualAt path with
    | some size => rfl
    | none =>
      cases guestPathToHost ctx.volumes path with
      | some map => rfl
      | none =>
        have hsyn : ctx.isSyntheticDir path = false := by
          rw [Bool.or_eq_true, not_or] at hs
          exact eq_false_of_ne_true hs.2
        dsimp only
        rw [isSyntheticDir_trimBackslashes, hsyn, Bool.and_false]
        rfl

end Stat

/-! ### Listings and what is there -/

/-- What is at the path of an entry is what the entry says. -/
def EntryAgrees (fs : HostFs) (ctx : ResolveCtx) (dirPath name : List Char) (isDir : Bool) : Prop :=
  (statPath fs ctx (entryPath dirPath name)).kind ≠ .notFound ∧
    ((statPath fs ctx (entryPath dirPath name)).kind = .directory ↔ isDir = true)

/-- The entries of a listing agree with what is there, but for `.` and `..`. -/
def ListingAgrees (fs : HostFs) (ctx : ResolveCtx) (dirPath : List Char) : Prop :=
  ∀ e ∈ listDir fs ctx dirPath, e.name ≠ ['.'] → e.name ≠ ['.', '.'] →
    EntryAgrees fs ctx dirPath e.name e.isDir

/-- An entry other than `.` and `..`. -/
structure Entry (fs : HostFs) (ctx : ResolveCtx) (dirPath name : List Char) (isDir : Bool) :
    Prop where
  lists : Lists fs ctx dirPath name isDir
  ne_dot : name ≠ ['.']
  ne_dotdot : name ≠ ['.', '.']

/-- No entry is answered for otherwise than it says. -/
structure Truthful (fs : HostFs) (ctx : ResolveCtx) (dirPath : List Char) : Prop where
  /-- An entry has a path. -/
  path : ∀ n b, Entry fs ctx dirPath n b → entryPath dirPath n ≠ []
  /-- No file has the path of a directory that always exists. -/
  file_clear : ∀ n, Entry fs ctx dirPath n false → ctx.standing (entryPath dirPath n) = false
  /-- A file that is mounted or on the host is a regular one there, unless it has the path or the
  name of the main module. -/
  file_regular : ∀ n, Entry fs ctx dirPath n false →
    ctx.pathIsMainModule (entryPath dirPath n) = false →
    (ctx.mountAt (entryPath dirPath n)).isSome = true ∨
      ctx.virtualAt (entryPath dirPath n) = none →
    ∃ host, ctx.hostAt (entryPath dirPath n) = some host ∧ fs.isRegular host = true
  /-- No directory has the path or the name of the main module, unless it always exists. -/
  dir_clear : ∀ n, Entry fs ctx dirPath n true → ctx.standing (entryPath dirPath n) = false →
    ctx.pathIsMainModule (entryPath dirPath n) = false
  /-- A directory that does not always exist is one of the host. -/
  dir_host : ∀ n, Entry fs ctx dirPath n true → ctx.standing (entryPath dirPath n) = false →
    ∃ host, ctx.hostAt (entryPath dirPath n) = some host ∧ fs.isDir host = true

section Agree

variable {fs : HostFs} {ctx : ResolveCtx} {dirPath name path : List Char}

theorem statPath_nil (fs : HostFs) (ctx : ResolveCtx) : (statPath fs ctx []).kind = .notFound := by
  rw [statPath, if_pos rfl]
  rfl

/-- When a directory is at a path. -/
theorem kind_statPath_eq_directory : (statPath fs ctx path).kind = .directory ↔
    path ≠ [] ∧ (ctx.standing path = false → ctx.pathIsMainModule path = false ∧
      ∃ host, ctx.hostAt path = some host ∧ fs.isDir host = true) := by
  by_cases hne : path = []
  · rw [hne, statPath_nil]
    simp
  rw [kind_statPath fs ctx hne, and_iff_right hne]
  by_cases hs : ctx.standing path = true
  · rw [if_pos hs]
    simp [hs]
  rw [if_neg hs]
  by_cases hm : ctx.pathIsMainModule path = true
  · rw [if_pos hm]
    simp [hs, hm]
  rw [if_neg hm]
  cases hh : ctx.hostAt path with
  | none =>
    dsimp only
    split_ifs <;> simp [hs]
  | some host =>
    dsimp only
    rw [kind_statHostPath]
    split_ifs with hd hr <;> simp [hs, hm, hd]

/-- When a file is at a path. -/
theorem kind_statPath_eq_file : (statPath fs ctx path).kind = .file ↔
    path ≠ [] ∧ ctx.standing path = false ∧ (ctx.pathIsMainModule path = false →
      (ctx.mountAt path).isSome = true ∨ ctx.virtualAt path = none →
      ∃ host, ctx.hostAt path = some host ∧ fs.isRegular host = true) := by
  by_cases hne : path = []
  · rw [hne, statPath_nil]
    simp
  rw [kind_statPath fs ctx hne, and_iff_right hne]
  by_cases hs : ctx.standing path = true
  · rw [if_pos hs]
    simp [hs]
  rw [if_neg hs, and_iff_right (eq_false_of_ne_true hs)]
  by_cases hm : ctx.pathIsMainModule path = true
  · rw [if_pos hm]
    simp [hm]
  rw [if_neg hm]
  rw [ResolveCtx.hostAt]
  cases ctx.mountAt path with
  | some host =>
    dsimp only
    rw [kind_statHostPath_eq_file]
    simp [hm]
  | none =>
    cases ctx.virtualAt path with
    | some size => simp
    | none =>
      cases guestPathToHost ctx.volumes path with
      | none => simp [hm]
      | some map =>
        rw [Option.map_some]
        dsimp only
        rw [kind_statHostPath_eq_file]
        simp [hm]

/-- An entry agrees with what is there as a directory or as a file. -/
theorem entryAgrees_iff {b : Bool} : EntryAgrees fs ctx dirPath name b ↔
    (statPath fs ctx (entryPath dirPath name)).kind = if b = true then .directory else .file := by
  rw [EntryAgrees]
  cases b <;> cases (statPath fs ctx (entryPath dirPath name)).kind <;> simp

/-- **Listings agree with what is there if they are truthful, and only then.** -/
theorem listingAgrees_iff (hdir : (statPath fs ctx dirPath).kind = .directory) :
    ListingAgrees fs ctx dirPath ↔ Truthful fs ctx dirPath := by
  have hentries : ListingAgrees fs ctx dirPath ↔
      ∀ n b, Entry fs ctx dirPath n b → EntryAgrees fs ctx dirPath n b := by
    constructor
    · intro h n b hn
      obtain ⟨e, he, rfl, rfl⟩ := (exists_mem_listDir hdir).mpr (.inr hn.lists)
      exact h e he hn.ne_dot hn.ne_dotdot
    · intro h e he h1 h2
      refine h _ _ ⟨?_, h1, h2⟩
      rcases (exists_mem_listDir hdir).mp ⟨e, he, rfl, rfl⟩ with ⟨e', he', hn, -⟩ | hl
      · rcases List.mem_cons.mp he' with rfl | he'
        · exact absurd hn.symm h1
        · exact absurd (List.mem_singleton.mp he' ▸ hn).symm h2
      · exact hl
  rw [hentries]
  constructor
  · intro h
    have hfile (n) (hn : Entry fs ctx dirPath n false) :=
      kind_statPath_eq_file.mp (entryAgrees_iff.mp (h n false hn))
    have hdirs (n) (hn : Entry fs ctx dirPath n true) :=
      kind_statPath_eq_directory.mp (entryAgrees_iff.mp (h n true hn))
    refine ⟨fun n b hn => ?_, fun n hn => (hfile n hn).2.1, fun n hn => (hfile n hn).2.2,
      fun n hn hs => ((hdirs n hn).2 hs).1, fun n hn hs => ((hdirs n hn).2 hs).2⟩
    cases b with
    | false => exact (hfile n hn).1
    | true => exact (hdirs n hn).1
  · intro h n b hn
    rw [entryAgrees_iff]
    cases b with
    | false =>
      exact kind_statPath_eq_file.mpr ⟨h.path n false hn, h.file_clear n hn, h.file_regular n hn⟩
    | true =>
      exact kind_statPath_eq_directory.mpr
        ⟨h.path n true hn, fun hs => ⟨h.dir_clear n hn hs, h.dir_host n hn hs⟩⟩

theorem eq_backslash_of_toLower {c : Char} (h : c.toLower = BACKSLASH.toLower) : c = BACKSLASH := by
  by_cases hc : c.val ≥ 'A'.val ∧ c.val ≤ 'Z'.val
  · -- letters are beyond the backslash
    have hlower : c.toLower.val = c.val + ('a'.val - 'A'.val) := congrArg Char.val (dif_pos hc)
    have hval := congrArg (fun c => c.val.toNat) h
    have h1 : 65 ≤ c.val.toNat := UInt32.le_iff_toNat_le.mp hc.1
    have h2 : c.val.toNat ≤ 90 := UInt32.le_iff_toNat_le.mp hc.2
    have hadd : (c.val + ('a'.val - 'A'.val)).toNat = (c.val.toNat + 32) % 2 ^ 32 :=
      UInt32.toNat_add ..
    have hback : BACKSLASH.toLower.val.toNat = 92 := by decide
    rw [hlower, hadd, hback] at hval
    omega
  · have hsame : c.toLower = c := dif_neg hc
    exact hsame ▸ h

/-- A synthetic directory that its entry leads back to always exists, and so agrees: what can be
wrong is one whose name goes on from that of the directory without a separator. -/
theorem entryAgrees_of_leadsBack {d : List Char} (hd : d ∈ ctx.syntheticDirs)
    (hc : isChild dirPath d = true)
    (hp : toAsciiLowercase (entryPath dirPath (guestBasename d)) =
      toAsciiLowercase (trimBackslashes d)) :
    EntryAgrees fs ctx dirPath (guestBasename d) true := by
  have hne : trimBackslashes d ≠ [] := by
    intro hnil
    rw [isChild, hnil] at hc
    cases hpre : stripPrefix (toAsciiLowercase (trimBackslashes dirPath)) (toAsciiLowercase []) with
    | none =>
      rw [hpre] at hc
      cases hc
    | some rest =>
      have hrest : rest = [] := by
        rw [stripPrefix] at hpre
        split_ifs at hpre
        rw [← Option.some.inj hpre]
        exact List.drop_nil
      rw [hpre, hrest] at hc
      cases hc
  have hpath : entryPath dirPath (guestBasename d) ≠ [] := by
    intro hnil
    rw [hnil] at hp
    exact hne (List.map_eq_nil_iff.mp hp.symm)
  have hlast : (entryPath dirPath (guestBasename d)).getLast hpath ≠ BACKSLASH := by
    intro hl
    have hmap : ((entryPath dirPath (guestBasename d)).getLast hpath).toLower =
        ((trimBackslashes d).getLast hne).toLower := by
      rw [← List.getLast_map (f := Char.toLower) (h := by simpa using hpath),
        ← List.getLast_map (f := Char.toLower) (h := by simpa using hne)]
      exact List.getLast_congr _ _ hp
    rw [hl] at hmap
    exact List.rdropWhile_last_not _ _ hne
      (decide_eq_true (eq_backslash_of_toLower hmap.symm))
  have hname : guestBasename d ≠ [] := by
    intro hnil
    apply hlast
    simp only [entryPath, joinWindowsPath, hnil, List.append_nil] at hpath ⊢
    split_ifs at hpath ⊢ with hjoined
    · exact absurd hjoined hpath
    · exact List.getLast_append_singleton ..
  have htrim : trimSeparators (entryPath dirPath (guestBasename d)) =
      entryPath dirPath (guestBasename d) := by
    rw [trimSeparators, List.rdropWhile_eq_self_iff]
    intro hne'
    have hmem : (entryPath dirPath (guestBasename d)).getLast hne' ∈ guestBasename d := by
      have hl : (entryPath dirPath (guestBasename d)).getLast hne' =
          (guestBasename d).getLast hname := List.getLast_append_of_ne_nil hne' hname
      rw [hl]
      exact List.getLast_mem hname
    have hsep := List.mem_rtakeWhile_imp hmem
    rw [Bool.not_eq_true'] at hsep
    rw [hsep]
    decide
  have hsyn : ctx.isSyntheticDir (entryPath dirPath (guestBasename d)) = true := by
    rw [ResolveCtx.isSyntheticDir, htrim, Bool.or_eq_true]
    refine .inr (List.any_eq_true.mpr ⟨d, hd, ?_⟩)
    rw [hp, stripPrefix, if_pos (List.isPrefixOf_iff_prefix.mpr (List.prefix_refl _)),
      List.drop_length]
    rfl
  rw [entryAgrees_iff]
  refine kind_statPath_eq_directory.mpr ⟨hpath, fun hs => absurd hs ?_⟩
  rw [ResolveCtx.standing, hsyn, Bool.or_true]
  decide

end Agree

/-- `DEFAULT_SYNTHETIC_DIRS`. -/
def DEFAULT_SYNTHETIC_DIRS : List (List Char) :=
  ["C:\\", "C:\\App", "C:\\Windows", "C:\\Windows\\System32", "C:\\Windows\\SysWOW64", "C:\\Users",
    "C:\\Users\\WIE", "C:\\Users\\WIE\\AppData", "C:\\Users\\WIE\\AppData\\Local",
    "C:\\Users\\WIE\\AppData\\Local\\Temp", "C:\\Temp", "C:\\ProgramData"].map String.toList

/-- A host with one directory. -/
def HostFs.single (host : List UInt8) : HostFs where
  metadata h := if h = host then some ⟨true, false, 0⟩ else none
  readDir h := if h = host then some [] else none

/-- The sources of a program in the bottle `/b`. -/
def plainCtx : ResolveCtx where
  volumes := ⟨some (asBytes ['/', 'b']), none⟩
  mainModulePath := "C:\\App\\a.exe".toList
  mainModuleFileName := "a.exe".toList
  hostFileMounts := []
  virtualFiles := []
  syntheticDirs := DEFAULT_SYNTHETIC_DIRS

/-- A host whose only directory is `Win` on drive `C`. -/
def winFs : HostFs := .single (asBytes "/b/drive_c/Win".toList)

theorem statPath_win : (statPath winFs plainCtx "C:\\Win".toList).kind = .directory := by
  decide +kernel

theorem listingAgrees_iff_win : ListingAgrees winFs plainCtx "C:\\Win".toList ↔
    Truthful winFs plainCtx "C:\\Win".toList :=
  listingAgrees_iff statPath_win

/-- **`Win` lists `Windows`.** -/
theorem not_listingAgrees : ¬∀ (fs : HostFs) (ctx : ResolveCtx) (dirPath : List Char),
    normalizeWindowsPathComponents dirPath = dirPath →
    (statPath fs ctx dirPath).kind = .directory → ListingAgrees fs ctx dirPath := by
  intro h
  have hentry : ⟨"Windows".toList, FILE_ATTRIBUTE_DIRECTORY, 0⟩ ∈
      listDir winFs plainCtx "C:\\Win".toList := by
    decide +kernel
  have hagrees := h winFs plainCtx "C:\\Win".toList (by decide +kernel) statPath_win _ hentry
    (by decide +kernel) (by decide +kernel)
  exact hagrees.1 (by decide +kernel)

end Wie
