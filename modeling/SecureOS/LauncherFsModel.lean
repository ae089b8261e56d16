import SecureOS.CapTableProofs
import Mathlib.Data.Fin.Tuple.Basic

/-! # Launcher-mediated files of an app

`kernel/user/launcher_fs.c`: a table of eight apps, each with a storage mode and four files.  An
app reads and writes its own files while it holds the filesystem capabilities; a relaunch drops
those, and the files too when the app is registered as ephemeral.

A buffer is the string in it: a path is what stands before the terminator, a content the first
`content_len` bytes.  Pointers that may be NULL are options; the output buffer is its size. -/

namespace LauncherFs

open Capability CapTable Function

/-- `launcher_fs_result_t`. -/
inductive FsResult where
  | ok
  | errInvalidApp
  | errNotRegistered
  | errDenied
  | errInvalidArg
  | errNoSpace
  | errNotFound
  | errInternal
deriving DecidableEq, Repr

/-- `launcher_fs_mode_t`. -/
inductive Mode where
  | persistent
  | ephemeral
  | other (value : Nat)
deriving DecidableEq, Repr

/-- `launcher_fs_file_t`. -/
structure File where
  used : Bool
  path : CStr
  content : CStr
deriving DecidableEq, Repr

/-- `launcher_fs_app_t`. -/
structure App where
  used : Bool
  subjectId : Nat
  mode : Mode
  files : Fin 4 → File

/-- `launcher_fs_apps` with the capability table and the audit ring. -/
structure State where
  apps : Fin 8 → App
  caps : Caps

/-- `LAUNCHER_FS_MAX_PATH`. -/
def launcherFsMaxPath : Nat := 32

/-- `LAUNCHER_FS_MAX_CONTENT`. -/
def launcherFsMaxContent : Nat := 64

def launcherFsSubjectInRange (appSubjectId : Nat) : Bool := appSubjectId < capTableMaxSubjects

def launcherFsFind (apps : Fin 8 → App) (appSubjectId : Nat) : Option (Fin 8) :=
  Fin.find? (fun i => (apps i).used && (apps i).subjectId == appSubjectId)

/-- A file slot without a file. -/
def emptyFile : File := ⟨false, [], []⟩

def launcherFsClearFiles (app : App) : App := { app with files := fun _ => emptyFile }

/-- An app slot after `launcher_fs_reset`. -/
def emptyApp : App := ⟨false, 0, .persistent, fun _ => emptyFile⟩

/-- The capability writes of `launcher_fs_app_relaunch`. -/
def dropFsCaps (bits : Bits) (appSubjectId : Nat) : Bits :=
  (capTableRevoke (capTableRevoke bits appSubjectId capFsRead).1 appSubjectId capFsWrite).1

def launcherFsRegisterApp (s : State) (appSubjectId : Nat) (mode : Mode) : State × FsResult :=
  if !launcherFsSubjectInRange appSubjectId then (s, .errInvalidApp)
  else if mode ≠ .persistent ∧ mode ≠ .ephemeral then (s, .errInvalidArg)
  else
    match launcherFsFind s.apps appSubjectId with
    | some i => if (s.apps i).mode ≠ mode then (s, .errInvalidArg) else (s, .ok)
    | none =>
      match Fin.find? (fun i => !(s.apps i).used) with
      | none => (s, .errInternal)
      | some i =>
        ({ s with
            apps := update s.apps i
              (launcherFsClearFiles ⟨true, appSubjectId, mode, (s.apps i).files⟩) }, .ok)

/-- The shape of `launcher_fs_grant` and `launcher_fs_revoke`, over the table call. -/
def changeCap (call : Bits → Nat → Nat → Bits × CapResult) (s : State) (appSubjectId cap : Nat) :
    State × FsResult :=
  if !launcherFsSubjectInRange appSubjectId then (s, .errInvalidApp)
  else if (launcherFsFind s.apps appSubjectId).isNone then (s, .errNotRegistered)
  else
    let g := call s.caps.bits appSubjectId cap
    let s := { s with caps := { s.caps with bits := g.1 } }
    if g.2 ≠ .ok then (s, .errInternal) else (s, .ok)

def launcherFsGrant : State → Nat → Nat → State × FsResult := changeCap capTableGrant

def launcherFsRevoke : State → Nat → Nat → State × FsResult := changeCap capTableRevoke

def launcherFsGrantRead (s : State) (appSubjectId : Nat) : State × FsResult :=
  launcherFsGrant s appSubjectId capFsRead

def launcherFsGrantWrite (s : State) (appSubjectId : Nat) : State × FsResult :=
  launcherFsGrant s appSubjectId capFsWrite

def launcherFsRevokeRead (s : State) (appSubjectId : Nat) : State × FsResult :=
  launcherFsRevoke s appSubjectId capFsRead

def launcherFsRevokeWrite (s : State) (appSubjectId : Nat) : State × FsResult :=
  launcherFsRevoke s appSubjectId capFsWrite

def launcherFsLookup (app : App) (path : CStr) : Option (Fin 4) :=
  Fin.find? (fun i => (app.files i).used && (app.files i).path == path)

def launcherFsAllocSlot (app : App) : Option (Fin 4) := Fin.find? (fun i => !(app.files i).used)

/-- `launcher_fs_app_write` from the length checks on. -/
def writeFile (app : App) (path content : CStr) : App × FsResult :=
  if path.length = 0 ∨ path.length ≥ launcherFsMaxPath then (app, .errInvalidArg)
  else if content.length ≥ launcherFsMaxContent then (app, .errNoSpace)
  else
    match launcherFsLookup app path with
    | some f =>
      ({ app with
          files := update app.files f { app.files f with content := content } }, .ok)
    | none =>
      match launcherFsAllocSlot app with
      | none => (app, .errNoSpace)
      | some f => ({ app with files := update app.files f ⟨true, path, content⟩ }, .ok)

def launcherFsAppWrite (s : State) (appSubjectId : Nat) (path content : Option CStr) :
    State × FsResult :=
  if !launcherFsSubjectInRange appSubjectId then (s, .errInvalidApp)
  else
    match path with
    | none => (s, .errInvalidArg)
    | some path =>
      match content with
      | none => (s, .errInvalidArg)
      | some content =>
        match launcherFsFind s.apps appSubjectId with
        | none => (s, .errNotRegistered)
        | some i =>
          if capTableCheck s.caps.bits appSubjectId capFsWrite ≠ .ok then
            -- the denial is published in the audit ring
            ({ s with
                caps := { s.caps with
                  audit := capAuditRecord s.caps.audit .check appSubjectId appSubjectId
                    capFsWrite .errMissing } }, .errDenied)
          else
            let w := writeFile (s.apps i) path content
            ({ s with apps := update s.apps i w.1 }, w.2)

/-- `launcher_fs_app_read` from the lookup on, into a buffer of this size. -/
def readFile (app : App) (path : CStr) (outBufferSize : Nat) : FsResult × Option CStr :=
  match launcherFsLookup app path with
  | none => (.errNotFound, none)
  | some f =>
    if (app.files f).content.length + 1 > outBufferSize then (.errNoSpace, none)
    else (.ok, some (app.files f).content)

/-- `launcher_fs_app_read`: the result and what is written to the buffer. -/
def launcherFsAppRead (s : State) (appSubjectId : Nat) (path : Option CStr)
    (outBuffer : Option Nat) : FsResult × Option CStr :=
  if !launcherFsSubjectInRange appSubjectId then (.errInvalidApp, none)
  else
    match path with
    | none => (.errInvalidArg, none)
    | some path =>
      match outBuffer with
      | none => (.errInvalidArg, none)
      | some outBufferSize =>
        if outBufferSize = 0 then (.errInvalidArg, none)
        else
          match launcherFsFind s.apps appSubjectId with
          | none => (.errNotRegistered, none)
          | some i =>
            if capTableCheck s.caps.bits appSubjectId capFsRead ≠ .ok then
              (.errDenied, none)
            else readFile (s.apps i) path outBufferSize

/-- The files a relaunch leaves. -/
def relaunchFiles (app : App) : App :=
  if app.mode = .ephemeral then launcherFsClearFiles app else app

def launcherFsAppRelaunch (s : State) (appSubjectId : Nat) : State × FsResult :=
  if !launcherFsSubjectInRange appSubjectId then (s, .errInvalidApp)
  else
    match launcherFsFind s.apps appSubjectId with
    | none => (s, .errNotRegistered)
    | some i =>
      ({ apps := update s.apps i (relaunchFiles (s.apps i))
         caps := { s.caps with bits := dropFsCaps s.caps.bits appSubjectId } }, .ok)

/-- A call for an app. -/
inductive Op where
  | register (appSubjectId : Nat) (mode : Mode)
  | grantRead (appSubjectId : Nat)
  | grantWrite (appSubjectId : Nat)
  | revokeRead (appSubjectId : Nat)
  | revokeWrite (appSubjectId : Nat)
  | write (appSubjectId : Nat) (path content : Option CStr)
  | read (appSubjectId : Nat) (path : Option CStr) (outBuffer : Option Nat)
  | relaunch (appSubjectId : Nat)
deriving DecidableEq, Repr

/-- The app a call is made for. -/
def Op.subject : Op → Nat
  | .register u _ => u
  | .grantRead u => u
  | .grantWrite u => u
  | .revokeRead u => u
  | .revokeWrite u => u
  | .write u _ _ => u
  | .read u _ _ => u
  | .relaunch u => u

/-- What a call returns: its result and what it wrote to the caller's buffer. -/
abbrev Reply := FsResult × Option CStr

/-- The reply of a call that writes no buffer. -/
def plain (r : State × FsResult) : State × Reply := (r.1, r.2, none)

/-- A call. -/
def exec (s : State) : Op → State × Reply
  | .register u mode => plain (launcherFsRegisterApp s u mode)
  | .grantRead u => plain (launcherFsGrantRead s u)
  | .grantWrite u => plain (launcherFsGrantWrite s u)
  | .revokeRead u => plain (launcherFsRevokeRead s u)
  | .revokeWrite u => plain (launcherFsRevokeWrite s u)
  | .write u path content => plain (launcherFsAppWrite s u path content)
  | .read u path outBuffer => (s, launcherFsAppRead s u path outBuffer)
  | .relaunch u => plain (launcherFsAppRelaunch s u)

/-- The state a call leaves. -/
def step (s : State) (op : Op) : State := (exec s op).1

/-- What a call returns. -/
def reply (s : State) (op : Op) : Reply := (exec s op).2

/-- No app registered, over any capability table. -/
def noApps (caps : Caps) : State := ⟨fun _ => emptyApp, caps⟩

end LauncherFs
