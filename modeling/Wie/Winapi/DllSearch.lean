import Wie.Winapi.DirListing
import Wie.Winapi.Modules

/-!
# Where a DLL is found

A name with a separator or a drive is a path, with `.dll` behind it if need be. Any other name gets
that ending in any case, and is looked for in the directories of the main module and of the system.
The file that is found decides the name that the module is entered under, and what it needs.

## Main definitions

* `resolveDllPath` — the search
* `DllHost`, `DllHost.find` — the host, and the file that a name stands for
* `ModuleEnv.standsFor` — the name that the module of a name is entered under
* `ModuleEnv.needs` — the names of the modules that a file needs
-/

namespace Wie

/-! ### Paths of the host -/

/-- A path, read from its end, without separators and components `.` there. -/
def dropPathTail : List Char → List Char
  | [] => []
  | '/' :: rest => dropPathTail rest
  | '.' :: '/' :: rest => dropPathTail rest
  | c :: rest => c :: rest

/-- `Path::parent`, of a text. -/
def pathParent (path : List Char) : Option (List Char) :=
  let tail := dropPathTail path.reverse
  if tail = [] then none
  else
    let dir := tail.dropWhile (· ≠ '/')
    let parent := (dropPathTail dir).reverse
    some (if parent = [] ∧ dir ≠ [] then ['/'] else parent)

/-- `Path::file_name`, if it is a text. -/
def hostFileName (path : List UInt8) : Option (List Char) :=
  match ((segments path).filter (· ≠ asBytes ['.'])).getLast? with
  | none => none
  | some last => if last = asBytes ['.', '.'] then none else fromUtf8 last

/-- `Path::extension`, of a name without separators. -/
def extensionOf (name : List Char) : Option (List Char) :=
  let after := name.rtakeWhile (· ≠ '.')
  if name.length ≤ after.length + 1 then none else some after

/-! ### The search -/

/-- `normalize_dll_name`. -/
def normalizeDllName (name : List Char) : List Char :=
  let basename := toAsciiLowercase (guestBasename (trimMatches (· = QUOTE) (trim name)))
  if extensionOf basename = some "dll".toList ∨ extensionOf basename = some "ocx".toList then
    basename
  else basename ++ ".dll".toList

/-- `GUEST_SYSTEM_DIR`. -/
def GUEST_SYSTEM_DIR : List Char := "C:\\Windows\\System32".toList

/-- `GUEST_WINDOWS_DIR`. -/
def GUEST_WINDOWS_DIR : List Char := "C:\\Windows".toList

/-- What the host has. -/
structure DllHost where
  /-- `volumes`. -/
  volumes : VolumeConfig
  /-- `Path::is_file`. -/
  isFile : List UInt8 → Bool
  /-- `fs::read`. -/
  read : List UInt8 → Option (List UInt8)
  /-- `main_module_host_dir`. -/
  mainModuleHostDir : Option (List UInt8)

section Search

variable (host : DllHost) (mainModulePath : List Char)

/-- `search_directories`. -/
def searchDirectories : List (List UInt8) :=
  let application := (pathParent mainModulePath).toList
  (application ++ [GUEST_SYSTEM_DIR, GUEST_WINDOWS_DIR] ++ application).foldl
    (fun dirs dir =>
      match guestPathToHost host.volumes dir with
      | some map => if map.host ∈ dirs then dirs else dirs ++ [map.host]
      | none => dirs) []

/-- A file of the guest. -/
def mappedFile (path : List Char) : Option (List UInt8) :=
  ((guestPathToHost host.volumes path).map (·.host)).filter host.isFile

/-- `resolve_dll_path`. -/
def resolveDllPath (dllName : List Char) : Option (List UInt8) :=
  let clean := trimMatches (· = QUOTE) (trim dllName)
  if clean = [] then none
  else
    let searchName := normalizeDllName clean
    if BACKSLASH ∈ clean ∨ '/' ∈ clean ∨ ':' ∈ clean then
      match mappedFile host clean with
      | some path => some path
      | none =>
        if searchName.isSuffixOf (toAsciiLowercase clean) then none
        else mappedFile host (clean ++ ".dll".toList)
    else
      (searchDirectories host mainModulePath ++ host.mainModuleHostDir.toList).findSome?
        fun dir => (some (pushPath dir (asBytes searchName))).filter host.isFile

/-- `resolve_windows_dll_path`. -/
def resolveWindowsDllPath (name : List Char) : List Char :=
  if BACKSLASH ∈ name ∨ '/' ∈ name ∨ ':' ∈ name then name
  else
    match pathParent mainModulePath with
    | some parent =>
      (parent.map fun c => if c = '/' then BACKSLASH else c) ++ BACKSLASH :: name
    | none => "C:\\App\\".toList ++ name

/-- What `load_dll` is called with for a file. -/
def DllHost.request (name : List Char) (path : List UInt8) : LoadRequest where
  file := host.read path
  fileName := hostFileName path
  hostPath := path
  guestPath := resolveWindowsDllPath mainModulePath name

/-- The file that a name stands for. -/
def DllHost.find (name : List Char) : Option LoadRequest :=
  (resolveDllPath host mainModulePath name).map (host.request mainModulePath name)

end Search

/-- The name that the module of a file is entered under. -/
def fileModuleName (path : List UInt8) : List Char :=
  toAsciiLowercase ((hostFileName path).getD "unknown.dll".toList)

theorem DllHost.moduleName_request (host : DllHost) (mainModulePath name : List Char)
    (path : List UInt8) :
    (host.request mainModulePath name path).moduleName = fileModuleName path := rfl

/-! ### What a file needs -/

variable {τ σ : Type} (env : ModuleEnv τ σ) (host : DllHost)

/-- The libraries in the imports of a file, if it has any that can be read. -/
def fileDependencies (parse : List UInt8 → Option ParsedDll) (file : Option (List UInt8)) :
    List (List Char) :=
  match file with
  | none => []
  | some bytes =>
    match parse bytes with
    | none => []
    | some dll =>
      match inspectPeImportsFromParsed dll.program bytes with
      | .error _ => []
      | .ok imports => dependenciesOf [] imports

namespace ModuleEnv

/-- The name is neither of the main module nor of the system. -/
def NeedsFile (name : List Char) : Prop :=
  env.isMainModuleName name = false ∧ env.resolveLoadedModuleHandle name = 0

instance (name : List Char) : Decidable (env.NeedsFile name) :=
  inferInstanceAs (Decidable (_ ∧ _))

/-- The name that the module of a name is entered under: that of its file, if there is one. -/
def standsFor (name : List Char) : List Char :=
  match resolveDllPath host env.mainModulePath name with
  | some path => fileModuleName path
  | none => normalizeModuleName name

/-- The modules among libraries, by the names that they are entered under. -/
def realNames (libraries : List (List Char)) : List (List Char) :=
  (libraries.filter fun name => env.NeedsFile name).map (env.standsFor host)

/-- The modules that a module needs. -/
def needs (m : LoadedModule) : List (List Char) :=
  env.realNames host (fileDependencies env.parse (host.read m.hostPath))

end ModuleEnv

end Wie
