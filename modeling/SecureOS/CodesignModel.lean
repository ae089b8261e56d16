import SecureOS.ConsoleAuthModel
import SecureOS.SofModel
import Mathlib.Data.List.DropRight

/-! # Launching files under the codesign cache

`kernel/user/launcher_exec.c` runs applications and loads libraries.  It finds the file, reads
it as a container, and has `app_validate_codesign` look at its signature.  A verdict on a
signature is kept in a cache of 32 entries under the path shown to the user and the size the
header claims.

The disk is what stands at each path: 8.3 names and directories make one file answer to several
paths, so a change of the disk is a new disk.  The answers of the callbacks are part of a call,
and so is the memory around the static buffer the file is read into.  A launch ends here with
the answer of `app_validate_codesign`. -/

namespace Codesign

open Capability CapTable Sof
open ConsoleAuth (Access)

/-! ## The cache -/

/-- `codesign_cache_state_t`. -/
inductive CacheState where
  | empty
  | valid
  | invalid
deriving DecidableEq, Repr

/-- `codesign_cache_entry_t`. -/
structure Entry where
  state : CacheState
  path : CStr
  totalSize : BitVec 32
deriving DecidableEq, Repr

/-- `g_codesign_cache`, with its `CODESIGN_CACHE_SLOTS` entries. -/
abbrev Cache := Fin 32 → Entry

/-- `CODESIGN_CACHE_PATH_MAX`. -/
def cachePathMax : Nat := 64

def codesignCacheHash (path : CStr) : Fin 32 :=
  let mix (h : BitVec 32) (c : Char) : BitVec 32 :=
    ((h <<< 5) + h) ^^^ BitVec.ofNat 32 (c.toNat % 256)
  ⟨(path.foldl mix 5381).toNat % 32, Nat.mod_lt _ (by decide)⟩

def codesignCacheLookup (cache : Cache) (path : CStr) (totalSize : BitVec 32) : CacheState :=
  let entry := cache (codesignCacheHash path)
  if entry.state = .empty then .empty
  else if entry.totalSize ≠ totalSize then .empty
  else if entry.path ≠ path then .empty
  else entry.state

def codesignCacheStore (cache : Cache) (path : CStr) (totalSize : BitVec 32)
    (state : CacheState) : Cache :=
  Function.update cache (codesignCacheHash path) ⟨state, path.take (cachePathMax - 1), totalSize⟩

/-! ## Paths -/

/-- `APP_TOKEN_MAX`, `APP_LINE_MAX`, `APP_FILE_MAX` and `APP_LIBRARY_FILE_MAX`. -/
def appTokenMax : Nat := 64
def appLineMax : Nat := 192
def appFileMax : Nat := 524288
def appLibraryFileMax : Nat := 32768

/-- `app_copy_string` into a buffer of that size. -/
def appCopyString (size : Nat) (src : CStr) : CStr := src.take (size - 1)

/-- `app_append_string` at the end of what the buffer holds. -/
def appAppendString (size : Nat) (dst src : CStr) : CStr := dst ++ src.take (size - 1 - dst.length)

def appPathIsSeparator (c : Char) : Bool := c == '/' || c == '\\'

def appPathIsLibrary (path : CStr) : Bool :=
  "/lib/".toList.isPrefixOf path || "\\lib\\".toList.isPrefixOf path
    || "lib/".toList.isPrefixOf path || "lib\\".toList.isPrefixOf path

def appAppendBinSuffix (size : Nat) (path : CStr) : CStr :=
  if ".bin".toList.isSuffixOf path then path else appAppendString size path ".bin".toList

def appBuildPathFromDir (size : Nat) (baseDir appName : CStr) : CStr :=
  if baseDir = [] ∨ appName = [] then []
  else
    let out := appAppendString size [] baseDir
    let out :=
      if out.length + 1 < size ∧ out.getLast?.any (fun c => !appPathIsSeparator c) then
        out ++ ['/']
      else out
    appAppendBinSuffix size (appAppendString size out appName)

def appBuildLibraryPath (size : Nat) (libraryName : CStr) : CStr :=
  match libraryName with
  | [] => []
  | c :: rest =>
    if appPathIsLibrary libraryName then
      appCopyString size (if appPathIsSeparator c then rest else libraryName)
    else
      let out := appAppendString size [] "lib/".toList
      let out := appAppendString size out libraryName
      if ".lib".toList.isSuffixOf libraryName then out
      else appAppendString size out ".lib".toList

/-- The delimiters `app_skip_path_delimiters` skips. -/
def isPathDelimiter (c : Char) : Bool := c == ' ' || c == '\t' || c == ';' || c == ':'

/-- The end of an entry of `PATH`. -/
def isEntryEnd (c : Char) : Bool := c == ';' || c == ':'

/-- `app_next_path_entry`: the entry, and where the next one may begin. -/
def appNextPathEntry (size : Nat) (cursor : CStr) : Option (CStr × CStr) :=
  match cursor.dropWhile isPathDelimiter with
  | [] => none
  | c :: rest =>
    let entry := (c :: rest).takeWhile (fun c => !isEntryEnd c)
    let next := (c :: rest).dropWhile (fun c => !isEntryEnd c)
    some ((entry.take (size - 1)).rdropWhile (fun c => c == ' ' || c == '\t'),
      next.dropWhile isEntryEnd)

theorem appNextPathEntry_shorter (h : appNextPathEntry size cursor = some (entry, next)) :
    next.length < cursor.length := by
  have hle := (List.dropWhile_suffix (l := cursor) isPathDelimiter).length_le
  rw [appNextPathEntry] at h
  cases hc : cursor.dropWhile isPathDelimiter with
  | nil =>
    rw [hc] at h
    cases h
  | cons c rest =>
    rw [hc] at h hle
    obtain ⟨-, rfl⟩ := Prod.mk.inj (Option.some.inj h)
    -- the first character is no delimiter, so it belongs to the entry
    have hno : isPathDelimiter c = false := by
      have := List.head?_dropWhile_not isPathDelimiter cursor
      rw [hc] at this
      exact this
    have hend : isEntryEnd c = false := by
      rw [isPathDelimiter, Bool.or_assoc (_ || _)] at hno
      exact (Bool.or_eq_false_iff.mp hno).2
    have hd : (c :: rest).dropWhile (fun c => !isEntryEnd c)
        = rest.dropWhile (fun c => !isEntryEnd c) := by
      rw [List.dropWhile_cons_of_pos (by rw [hend]; rfl)]
    rw [hd]
    have h₁ := (List.dropWhile_suffix (l := rest) (fun c => !isEntryEnd c)).length_le
    have h₂ := (List.dropWhile_suffix (l := rest.dropWhile (fun c => !isEntryEnd c))
      isEntryEnd).length_le
    rw [List.length_cons] at hle
    omega

/-- The entries of `PATH`, in the order the loop of `process_run` reads them. -/
def appPathEntries (size : Nat) (cursor : CStr) : List CStr :=
  match _h : appNextPathEntry size cursor with
  | none => []
  | some (entry, next) => entry :: appPathEntries size next
termination_by cursor.length
decreasing_by exact appNextPathEntry_shorter _h

/-! ## Finding the file -/

/-- `fs_result_t` of a read that fails. -/
inductive FsError where
  | invalidArg
  | notFound
  | storage
  | noSpace
  | notDir
deriving DecidableEq, Repr

/-- What stands at each path of the disk. -/
abbrev Files := CStr → Except FsError (List Byte)

/-- `fs_read_file_bytes` into a buffer of that size. -/
def fsReadFileBytes (files : Files) (path : CStr) (size : Nat) : Except FsError (List Byte) :=
  match files path with
  | .error e => .error e
  | .ok bytes => if bytes.length > size then .error .noSpace else .ok bytes

/-- `process_result_t`, as far as a launch returns it before the program runs. -/
inductive ProcessResult where
  | ok
  | invalidArg
  | notFound
  | capability
  | denied
  | storage
  | format
  | library
  | signature
deriving DecidableEq, Repr

/-- `process_context_t`: the subject and the callbacks a launch uses. -/
structure Context where
  subjectId : Nat
  output : Bool
  authorizeDiskIo : Option (CStr → CStr → Access)
  authorizeUnsigned : Option (CStr → Access)
  resolvePath : Option (CStr → CStr)
  getEnv : Option (CStr → Option CStr)

/-- The path a candidate is read at: one leading separator is skipped. -/
def fsPathOf : CStr → CStr
  | [] => []
  | c :: rest => if appPathIsSeparator c then rest else c :: rest

/-- `app_try_read_app_candidate`, with the candidate that was read. -/
def appTryReadAppCandidate (files : Files) (candidate : CStr) : Except FsError (CStr × List Byte) :=
  if candidate = [] then .error .invalidArg
  else (fsReadFileBytes files (fsPathOf candidate) appFileMax).map (fun bytes => (candidate, bytes))

/-- A candidate that is no library, after `fsResult` of the earlier ones, which only a missing file
    leaves. -/
def tryCandidate (files : Files) (fsResult : FsError) (path : CStr) :
    Except FsError (CStr × List Byte) :=
  if appPathIsLibrary path then .error fsResult
  else
    match appTryReadAppCandidate files path with
    | .error .notFound => .error fsResult
    | read => read

/-- The loop of `process_run` over the entries of `PATH`. -/
def searchPath (files : Files) (appName : CStr) (fsResult : FsError) :
    List CStr → Except FsError (CStr × List Byte)
  | [] => .error fsResult
  | entry :: entries =>
    let path := appBuildPathFromDir appTokenMax entry appName
    if entry = [] ∨ appPathIsLibrary path then searchPath files appName fsResult entries
    else
      match appTryReadAppCandidate files path with
      | .error .notFound => searchPath files appName fsResult entries
      | read => read

/-- The search of `process_run` for a relative name: here, along `PATH`, and under `os`. -/
def searchRelative (files : Files) (context : Context) (appName : CStr) :
    Except FsError (CStr × List Byte) :=
  let here : Except FsError (CStr × List Byte) :=
    match context.resolvePath with
    | none => .error .notFound
    | some resolvePath =>
      tryCandidate files .notFound
        (appAppendBinSuffix appTokenMax (appCopyString appTokenMax (resolvePath appName)))
  let along : Except FsError (CStr × List Byte) :=
    match here with
    | .ok found => .ok found
    | .error e =>
      match context.getEnv.bind (fun getEnv => getEnv "PATH".toList) with
      | none => .error e
      | some path =>
        searchPath files appName e (appPathEntries appTokenMax (appCopyString appLineMax path))
  match along with
  | .ok found => .ok found
  | .error e => tryCandidate files e (appBuildPathFromDir appTokenMax "os".toList appName)

/-- `process_run` up to the file: the path shown and the bytes, or none, maybe for a built-in
    command. -/
def processRunFile (files : Files) (context : Context) (appName : CStr) :
    Except ProcessResult (CStr × List Byte) :=
  match appName with
  | [] => .error .invalidArg
  | c :: _ =>
    if appPathIsLibrary appName then .error .library
    else
      let path := appAppendBinSuffix appTokenMax (appCopyString appTokenMax appName)
      if appPathIsSeparator c ∧ appPathIsLibrary path then .error .library
      else
        let found :=
          if appPathIsSeparator c then appTryReadAppCandidate files path
          else searchRelative files context appName
        match found with
        | .ok found => .ok found
        | .error .notFound => .error .notFound
        | .error _ => .error .storage

def appRequireStorageAccess (bits : Bits) (context : Context) (capabilityId : Nat)
    (operation path : CStr) : ProcessResult :=
  if capTableCheck bits context.subjectId capabilityId ≠ .ok then .capability
  else if capTableCheck bits context.subjectId capDiskIoRequest ≠ .ok then .capability
  else
    match context.authorizeDiskIo with
    | none => .denied
    | some authorize => if authorize operation path ≠ .allow then .denied else .ok

/-- The path of a library as it is shown to the user. -/
def libraryDisplayPath (libraryPath : CStr) : CStr := appAppendString appTokenMax ['/'] libraryPath

/-- `process_load_library` up to the file. -/
def processLoadLibraryFile (files : Files) (bits : Bits) (context : Context)
    (libraryName : CStr) : Except ProcessResult (CStr × List Byte) :=
  if libraryName = [] then .error .invalidArg
  else
    let libraryPath := appBuildLibraryPath appTokenMax libraryName
    if !appPathIsLibrary libraryPath then .error .library
    else
      let access := appRequireStorageAccess bits context capFsRead "loadlib".toList
        (libraryDisplayPath libraryPath)
      if access ≠ .ok then .error access
      else
        match fsReadFileBytes files libraryPath appLibraryFileMax with
        | .ok bytes => .ok (libraryDisplayPath libraryPath, bytes)
        | .error .notFound => .error .notFound
        | .error _ => .error .storage

/-! ## Validation -/

/-- What a validation leaves: the cache, its answer, and what it wrote. -/
structure Outcome where
  cache : Cache
  result : ProcessResult
  output : List CStr

/-- `app_emit` of several texts. -/
def appEmit (context : Context) (messages : List CStr) : List CStr :=
  if context.output then messages else []

/-- `(unknown)`, for a file without a path. -/
def displayName (displayPath : Option CStr) : CStr := displayPath.getD "(unknown)".toList

/-- `app_validate_codesign` of a file without a signature. -/
def validateUnsigned (bits : Bits) (context : Context) (cache : Cache)
    (displayPath : Option CStr) : Outcome :=
  if capTableCheck bits context.subjectId capCodesignBypass = .ok then ⟨cache, .ok, []⟩
  else
    match context.authorizeUnsigned with
    | some authorize =>
      if authorize (displayName displayPath) ≠ .allow then
        ⟨cache, .signature, appEmit context
          ["[codesign] BLOCKED by user: ".toList, displayName displayPath, "\n".toList]⟩
      else ⟨cache, .ok, []⟩
    | none =>
      ⟨cache, .ok, appEmit context
        ["[codesign] WARNING: unsigned binary: ".toList, displayName displayPath, "\n".toList]⟩

/-- `app_validate_codesign` of a signature the cache does not know. -/
def validateSignature (crypto : Crypto) (context : Context) (cache : Cache) (fileData : Memory)
    (fileLen : Nat) (parsed : Parsed) (displayPath : Option CStr) : Outcome :=
  let store (state : CacheState) : Cache :=
    match displayPath with
    | some path => codesignCacheStore cache path parsed.header.totalSize state
    | none => cache
  if sofVerifySignature crypto fileData fileLen parsed = .ok then ⟨store .valid, .ok, []⟩
  else
    ⟨store .invalid, .ok, appEmit context
      ["[codesign] WARNING: signature verification failed: ".toList, displayName displayPath,
        "\n".toList]⟩

def appValidateCodesign (crypto : Crypto) (bits : Bits) (context : Context) (cache : Cache)
    (fileData : Memory) (fileLen : Nat) (parsed : Parsed) (displayPath : Option CStr) : Outcome :=
  if !parsed.hasSignature then validateUnsigned bits context cache displayPath
  else
    match displayPath.map (fun path => codesignCacheLookup cache path parsed.header.totalSize) with
    | some .valid => ⟨cache, .ok, []⟩
    | some .invalid =>
      ⟨cache, .ok, appEmit context
        ["[codesign] WARNING: signature verification failed (cached): ".toList,
          displayName displayPath, "\n".toList]⟩
    | _ => validateSignature crypto context cache fileData fileLen parsed displayPath

/-! ## Launches and the disk as a machine -/

/-- What is launched: an application or a library, by name. -/
inductive Target where
  | run (appName : CStr)
  | loadLibrary (libraryName : CStr)
deriving DecidableEq, Repr

/-- The file type a launch asks for. -/
def Target.fileType : Target → FileType
  | .run _ => .bin
  | .loadLibrary _ => .lib

/-- A call of `process_run` or `process_load_library`, with the capabilities and the memory around
    its buffer. -/
structure Launch where
  target : Target
  bits : Bits
  context : Context
  around : Memory

/-- The buffer after a file was read into it. -/
def bufferOf (file : List Byte) (around : Memory) : Memory := fun i => file.getD i (around i)

structure Machine where
  cache : Cache
  files : Files

/-- The path shown and the bytes a launch finds. -/
def launchFile (files : Files) (l : Launch) : Except ProcessResult (CStr × List Byte) :=
  match l.target with
  | .run appName => processRunFile files l.context appName
  | .loadLibrary libraryName => processLoadLibraryFile files l.bits l.context libraryName

/-- `process_run` and `process_load_library` up to the answer of `app_validate_codesign`. -/
def launch (crypto : Crypto) (y : Machine) (l : Launch) : Outcome :=
  match launchFile y.files l with
  | .error e => ⟨y.cache, e, []⟩
  | .ok (path, file) =>
    match sofParse (bufferOf file l.around) file.length with
    | .error _ => ⟨y.cache, .format, []⟩
    | .ok parsed =>
      if parsed.header.fileType ≠ l.target.fileType then ⟨y.cache, .format, []⟩
      else appValidateCodesign crypto l.bits l.context y.cache (bufferOf file l.around)
        file.length parsed (some path)

/-- A step: the disk changes, or something is launched. -/
inductive Op where
  | replace (files : Files)
  | launch (l : Launch)

def step (crypto : Crypto) (y : Machine) : Op → Machine
  | .replace files => { y with files := files }
  | .launch l => { y with cache := (launch crypto y l).cache }

/-- The cache after boot, over the disk it finds. -/
def start (files : Files) : Machine := ⟨fun _ => ⟨.empty, [], 0⟩, files⟩

end Codesign
