import SecureOS.PosixFdModel

/-! # Output streams of the C library

`user/libs/clib/src/stdio.c`: a pool of eight streams.  A stream opened for writing
gathers bytes in a buffer of 8192, and `fflush` hands them to the backend, the first time
to replace the file and then to continue it.  `fdopen` puts a stream on a descriptor of
`posix_fd.c`, whose own snapshot is then not stored any more.

The backend writes to the storage of the descriptors.  A caller's buffer is the memory
from a pointer on, and `size_t` wraps.  A copy that would run behind the stream's buffer
is not carried out here but noted in `smashed`.  The console streams, which have no
buffer, and `fread` are left out. -/

namespace Stdio

open Capability (CStr)
open Sof (Byte)
open ByteStore (load)
open PosixFd (Disk Refusal)

/-- `CLIB_STDIO_FILE_BUF_CAP`. -/
def fileBufCap : Nat := 8192

/-- `CLIB_STDIO_PATH_MAX`. -/
def pathMax : Nat := 256

inductive Kind where
  | fileR | fileW | fileA
deriving DecidableEq, Repr

/-- `struct clib_FILE`, in use; `buf` has its first `len` bytes. -/
structure Stream where
  kind : Kind
  path : CStr
  buf : List Byte
  flushedOnce : Bool
  errFlag : Bool
  ownedFd : Option Int

structure State where
  pool : Fin 8 → Option Stream
  fds : PosixFd.State

/-- The modes of `fopen` and of `fdopen_parse_mode`. -/
def parseMode (mode : CStr) : Option Kind :=
  if mode = ['r'] ∨ mode = ['r', 'b'] then some .fileR
  else if mode = ['w'] ∨ mode = ['w', 'b'] then some .fileW
  else if mode = ['a'] ∨ mode = ['a', 'b'] then some .fileA
  else none

/-- A stream as `pool_alloc` hands it out, with its path and kind. -/
def fresh (path : CStr) (kind : Kind) : Stream := ⟨kind, path, [], false, false, none⟩

/-- `pool_alloc` and the fields set after it; a stream for reading takes the file in. -/
def openStream (s : State) (refusal : Option Refusal) (path : CStr) (f : Stream) :
    State × Option (Fin 8) :=
  match (List.finRange 8).find? (fun i => (s.pool i).isNone) with
  | none => (s, none)
  | some i =>
    if pathMax ≤ path.length then (s, none)
    else if f.kind = .fileR then
      match PosixFd.osFsReadFileBytes s.fds.disk refusal path fileBufCap with
      | (.ok, bytes) =>
        ({ s with pool := Function.update s.pool i (some { f with buf := bytes }) }, some i)
      | _ => (s, none)
    else ({ s with pool := Function.update s.pool i (some f) }, some i)

def fopen (s : State) (refusal : Option Refusal) (path mode : CStr) : State × Option (Fin 8) :=
  match parseMode mode with
  | none => (s, none)
  | some kind => openStream s refusal path (fresh path kind)

/-- `clib_posix_fd_forget`. -/
def posixFdForget (fds : PosixFd.State) (k : Fin 8) : PosixFd.State :=
  fds.setSlot k { fds.slots k with dirty := false }

def fdopen (s : State) (refusal : Option Refusal) (fd : Int) (mode : CStr) :
    State × Option (Fin 8) :=
  match parseMode mode, PosixFd.fdSlotFromPublic s.fds fd with
  | some kind, some k =>
    let path := (s.fds.slots k).path
    let f := { fresh path kind with ownedFd := some fd, flushedOnce := kind = .fileA }
    match openStream s refusal path f with
    | (s, none) => (s, none)
    | (s, some i) =>
      if kind = .fileR then (s, some i)
      else ({ s with fds := posixFdForget s.fds k }, some i)
  | _, _ => (s, none)

/-- What `fwrite` did: the stream, its value, and whether it ran behind the buffer. -/
structure Written where
  stream : Stream
  units : Nat
  smashed : Bool

/-- `fwrite` to a stream of the pool. -/
def fwrite (f : Stream) (buf : Option (Nat → Byte)) (size nmemb : BitVec 64) : Written :=
  match buf with
  | none => ⟨f, 0, false⟩
  | some data =>
    if size = 0 ∨ nmemb = 0 then ⟨f, 0, false⟩
    else if f.kind = .fileR then ⟨{ f with errFlag := true }, 0, false⟩
    else
      let want := size * nmemb
      if fileBufCap < (BitVec.ofNat 64 f.buf.length + want).toNat then
        let fitUnits := (fileBufCap - f.buf.length) / size.toNat
        ⟨{ f with errFlag := true, buf := f.buf ++ load data 0 (fitUnits * size.toNat) },
          fitUnits, false⟩
      else if fileBufCap < f.buf.length + want.toNat then ⟨f, nmemb.toNat, true⟩
      else ⟨{ f with buf := f.buf ++ load data 0 want.toNat }, nmemb.toNat, false⟩

/-- `fflush`, and whether it succeeded. -/
def fflush (disk : Disk) (refusal : Option Refusal) (f : Stream) : Disk × Stream × Bool :=
  if f.kind = .fileR ∨ f.buf.length = 0 then (disk, f, true)
  else
    let append := f.kind = .fileA ∨ f.flushedOnce
    match PosixFd.osFsWriteFileBytes disk refusal f.path f.buf append with
    | (.ok, disk) => (disk, { f with flushedOnce := true, buf := [] }, true)
    | (_, disk) => (disk, { f with errFlag := true }, false)

/-- `fclose`, and whether it succeeded; closing the adopted descriptor may store too. -/
def fclose (s : State) (refusal refusal' : Option Refusal) (i : Fin 8) (f : Stream) :
    State × Bool :=
  let (disk, f, ok) := fflush s.fds.disk refusal f
  let s := { pool := Function.update s.pool i none, fds := { s.fds with disk := disk } }
  match f.ownedFd with
  | none => (s, ok)
  | some fd =>
    let (fds, r) := PosixFd.posixClose s.fds refusal' fd
    ({ s with fds := fds }, ok && r.isOk)

/-- A call: an `fwrite`, which may report nothing unless everything was taken, or a flush. -/
inductive Call where
  | write (whole : Bool) (buf : Option (Nat → Byte)) (size nmemb : BitVec 64)
  | flush (refusal : Option Refusal)

/-- The memory from a string on. -/
def memory (str : List Byte) : Nat → Byte := fun i => str.getD i 0

def fputc (c : Byte) : Call := .write true (some (memory [c])) 1 1

/-- A stream being written, with the bytes its calls reported. -/
structure Session where
  disk : Disk
  stream : Stream
  reported : List Byte
  smashed : Bool

/-- The bytes a call reports: `units` elements of its size. -/
def reportedBytes (whole : Bool) (buf : Option (Nat → Byte)) (size nmemb : BitVec 64)
    (units : Nat) : List Byte :=
  if whole ∧ units ≠ nmemb.toNat then []
  else load (buf.getD (fun _ => 0)) 0 (units * size.toNat)

def step (t : Session) : Call → Session
  | .write whole buf size nmemb =>
    let w := fwrite t.stream buf size nmemb
    { t with
      stream := w.stream
      reported := t.reported ++ reportedBytes whole buf size nmemb w.units
      smashed := t.smashed || w.smashed }
  | .flush refusal =>
    let (disk, f, _) := fflush t.disk refusal t.stream
    { t with disk := disk, stream := f }

end Stdio
