import Mathlib.Algebra.Ring.Int.Defs
import SecureOS.CapabilityModel
import SecureOS.SofModel
import SecureOS.Lib.ByteStoreProofs
import SecureOS.Lib.MachineRunProofs

/-! # The POSIX descriptors of the C library

`user/libs/clib/src/posix_fd.c`: eight slots behind the descriptors 3 to 10.  `open` loads the
whole file into the slot's buffer, `read`, `write` and `lseek` work there, and `close` writes a
changed buffer back.  Descriptors 0, 1 and 2 are the console.

The storage behind `os_fs_read_file_bytes` and `os_fs_write_file_bytes` is a map from paths to
whole files.  Whether it refuses a call, and whether the console takes a chunk, is an input of
the call.  A buffer handed in by the caller is the list of its bytes, so `count` is its length,
with a flag for the null pointer.  A failing call is its `errno`. -/

namespace PosixFd

open Capability (CStr)
open Sof (Byte)
open ByteStore (load store)

/-- `CLIB_POSIX_FD_FIRST`. -/
def fdFirst : Int := 3

/-- `CLIB_POSIX_FD_PATH_CAP`. -/
def pathCap : Nat := 256

/-- `CLIB_POSIX_FD_FILE_CAP`. -/
def fileCap : Nat := 128 * 1024

/-- `CLIB_CONSOLE_CHUNK_CAP`. -/
def consoleChunkCap : Nat := 256

/-- `LONG_MAX`. -/
def longMax : Int := 2 ^ 63 - 1

/-- The largest `size_t`. -/
def sizeMax : Int := 2 ^ 64 - 1

def oRdonly : BitVec 32 := 0x0000
def oRdwr : BitVec 32 := 0x0002
def oAccmode : BitVec 32 := 0x0003
def oCreat : BitVec 32 := 0x0040
def oTrunc : BitVec 32 := 0x0200
def oAppend : BitVec 32 := 0x0400

def seekSet : Int := 0
def seekCur : Int := 1
def seekEnd : Int := 2

inductive Errno where
  | einval | ebusy | emfile | eacces | enoent | eio | eoverflow
  | ebadf | enotsup | efault | enospc | espipe
deriving DecidableEq, Repr

/-! ## The storage -/

/-- `os_status_t`. -/
inductive OsStatus where
  | ok | denied | notFound | error
deriving DecidableEq, Repr

/-- `status_to_errno`; success is no error. -/
def statusToErrno : OsStatus → Option Errno
  | .ok => none
  | .denied => some .eacces
  | .notFound => some .enoent
  | .error => some .eio

abbrev Disk := CStr → Option (List Byte)

/-- Why a call is refused. -/
inductive Refusal where
  | denied | notFound | error
deriving DecidableEq, Repr

def Refusal.status : Refusal → OsStatus
  | .denied => .denied
  | .notFound => .notFound
  | .error => .error

/-- `os_fs_read_file_bytes`: the whole file, or a failure when it is larger than the buffer. -/
def osFsReadFileBytes (disk : Disk) (refusal : Option Refusal) (path : CStr) (size : Nat) :
    OsStatus × List Byte :=
  if refusal = some .denied then (.denied, [])
  else if refusal = some .error then (.error, [])
  else
    match disk path with
    | none => (.notFound, [])
    | some bytes => if size < bytes.length then (.error, []) else (.ok, bytes)

/-- `os_fs_write_file_bytes`: the file is replaced, or continued. -/
def osFsWriteFileBytes (disk : Disk) (refusal : Option Refusal) (path : CStr)
    (content : List Byte) (append : Bool) : OsStatus × Disk :=
  match refusal with
  | some r => (r.status, disk)
  | none =>
    let old := if append then (disk path).getD [] else []
    (.ok, Function.update disk path (some (old ++ content)))

/-! ## The slots -/

/-- `clib_posix_fd_slot_t`. -/
structure Slot where
  inUse : Bool
  writable : Bool
  append : Bool
  dirty : Bool
  path : CStr
  data : Nat → Byte
  len : Nat
  cursor : Nat

/-- A slot after `clib_mem_zero`. -/
def Slot.zero : Slot :=
  { inUse := false, writable := false, append := false, dirty := false, path := [],
    data := fun _ => 0, len := 0, cursor := 0 }

structure State where
  slots : Fin 8 → Slot
  disk : Disk
  console : List (List Byte)

/-- The statics of the library over any storage. -/
def start (disk : Disk) : State := ⟨fun _ => .zero, disk, []⟩

def State.setSlot (s : State) (i : Fin 8) (slot : Slot) : State :=
  { s with slots := Function.update s.slots i slot }

def pathIsConsoleAlias (path : CStr) : Bool :=
  ["/dev/stdin".toList, "/dev/stdout".toList, "/dev/stderr".toList].any (fun name => name == path)

def fdIsConsole (fd : Int) : Bool := fd == 0 || fd == 1 || fd == 2

/-- The slot a public descriptor stands for. -/
def fdIndex (fd : Int) : Option (Fin 8) :=
  if h : fdFirst ≤ fd ∧ fd < fdFirst + 8 then
    some ⟨(fd - fdFirst).toNat, by have h1 := h.1; have h2 := h.2; unfold fdFirst at *; omega⟩
  else none

def fdSlotFromPublic (s : State) (fd : Int) : Option (Fin 8) :=
  (fdIndex fd).filter (fun i => (s.slots i).inUse)

/-- `path_copy` gives the path or fails. -/
def pathCopy (src : CStr) : Except Errno CStr :=
  let n := min src.length pathCap
  if n = 0 ∨ pathCap ≤ n then .error .einval else .ok src

/-- `load_snapshot`: the slot, and the error if there was one. -/
def loadSnapshot (disk : Disk) (refusal : Option Refusal) (slot : Slot) (path : CStr) :
    Slot × Option Errno :=
  let slot := { slot with data := fun _ => 0 }
  match osFsReadFileBytes disk refusal path fileCap with
  | (.ok, bytes) =>
    if fileCap < bytes.length then (slot, some .eoverflow)
    else ({ slot with data := store slot.data 0 bytes, len := bytes.length, cursor := 0 }, none)
  | (st, _) => (slot, statusToErrno st)

/-- `flush_snapshot`: the storage and the slot, and the error if there was one. -/
def flushSnapshot (disk : Disk) (refusal : Option Refusal) (slot : Slot) :
    Disk × Slot × Option Errno :=
  if slot.dirty = false then (disk, slot, none)
  else
    match osFsWriteFileBytes disk refusal slot.path (load slot.data 0 slot.len) false with
    | (.ok, disk') => (disk', { slot with dirty := false }, none)
    | (st, disk') => (disk', slot, statusToErrno st)

/-! ## The calls -/

/-- What a call returns: its value and what it put into the caller's buffer, or its errno. -/
abbrev Result := Except Errno (Int × List Byte)

/-- The first slot not in use. -/
def freeSlot (s : State) : Option (Fin 8) := (List.finRange 8).find? (fun i => !(s.slots i).inUse)

/-- The snapshot `open` starts from: loaded, created empty, or emptied; or why it fails. -/
def openSnapshot (disk : Disk) (refusal : Option Refusal) (path : CStr) (flags : BitVec 32) :
    Slot × Option Errno :=
  match loadSnapshot disk refusal { Slot.zero with path := path } path with
  | (slot, some e) =>
    if e = .enoent ∧ flags &&& oCreat ≠ 0 then
      ({ slot with len := 0, cursor := 0, dirty := true }, none)
    else (slot, some e)
  | (slot, none) =>
    if flags &&& oTrunc ≠ 0 ∧ slot.len ≠ 0 then
      ({ slot with data := fun _ => 0, len := 0, cursor := 0, dirty := true }, none)
    else (slot, none)

/-- `open`. -/
def posixOpen (s : State) (refusal : Option Refusal) (path : Option CStr) (flags : BitVec 32) :
    State × Result :=
  match path with
  | none => (s, .error .einval)
  | some path =>
    if path = [] then (s, .error .einval)
    else if pathIsConsoleAlias path then (s, .error .ebusy)
    else
      match freeSlot s with
      | none => (s, .error .emfile)
      | some i =>
        match pathCopy path with
        | .error e => (s.setSlot i .zero, .error e)
        | .ok path =>
          match openSnapshot s.disk refusal path flags with
          | (slot, some e) => (s.setSlot i slot, .error e)
          | (slot, none) =>
            (s.setSlot i
              { slot with
                writable := flags &&& oAccmode != oRdonly
                append := flags &&& oAppend != 0
                inUse := true },
              .ok (fdFirst + i.val, []))

/-- A call on the slot of a descriptor, which may also write to the storage. -/
def onSlot (s : State) (fd : Int) (f : Disk → Slot → Disk × Slot × Result) : State × Result :=
  match fdSlotFromPublic s fd with
  | none => (s, .error .ebadf)
  | some i =>
    let (disk, slot, r) := f s.disk (s.slots i)
    ({ s with disk := disk, slots := Function.update s.slots i slot }, r)

/-- `close` on a slot: one that cannot be written back stays open. -/
def closeSlot (refusal : Option Refusal) (disk : Disk) (slot : Slot) : Disk × Slot × Result :=
  match flushSnapshot disk refusal slot with
  | (disk, slot, some e) => (disk, slot, .error e)
  | (disk, _, none) => (disk, .zero, .ok (0, []))

/-- `close`. -/
def posixClose (s : State) (refusal : Option Refusal) (fd : Int) : State × Result :=
  if fdIsConsole fd then (s, .ok (0, [])) else onSlot s fd (closeSlot refusal)

/-- `read` on a slot. -/
def readSlot (null : Bool) (count : Nat) (disk : Disk) (slot : Slot) : Disk × Slot × Result :=
  if null ∧ 0 < count then (disk, slot, .error .efault)
  else if count = 0 then (disk, slot, .ok (0, []))
  else if slot.len ≤ slot.cursor then (disk, slot, .ok (0, []))
  else
    let avail := slot.len - slot.cursor
    let take := if count < avail then count else avail
    if longMax < take then (disk, slot, .error .eoverflow)
    else (disk, { slot with cursor := slot.cursor + take },
      .ok (take, load slot.data slot.cursor take))

/-- `read`. -/
def posixRead (s : State) (fd : Int) (null : Bool) (count : Nat) : State × Result :=
  if fd = 0 then (s, .error .enotsup)
  else if fdIsConsole fd then (s, .error .ebadf)
  else onSlot s fd (readSlot null count)

/-- `console_write_bytes`: the chunks the console took, and whether it took all of them. Each run of
    bytes without a zero is one chunk, of at most `consoleChunkCap` bytes. -/
def consoleWriteBytes (accepts : Nat → Bool) (k : Nat) : List Byte → List (List Byte) × Bool
  | [] => ([], true)
  | b :: p =>
    let chunk := ((b :: p).take consoleChunkCap).takeWhile (fun b => b != 0)
    let n := chunk.length
    if 0 < n then
      if accepts k then
        -- the zero that ends a chunk is skipped
        let rest := if n < consoleChunkCap ∧ n < (b :: p).length then p.drop n
          else p.drop (n - 1)
        let (chunks, ok) := consoleWriteBytes accepts (k + 1) rest
        (chunk :: chunks, ok)
      else ([], false)
    else consoleWriteBytes accepts k p
termination_by p => p.length
decreasing_by
  · split <;> simp only [List.length_drop, List.length_cons] <;> omega
  · simp only [List.length_cons]; omega

/-- `write` on a slot. -/
def writeSlot (null : Bool) (bytes : List Byte) (disk : Disk) (slot : Slot) :
    Disk × Slot × Result :=
  let count := bytes.length
  if slot.writable = false then (disk, slot, .error .ebadf)
  else if null ∧ 0 < count then (disk, slot, .error .efault)
  else if count = 0 then (disk, slot, .ok (0, []))
  else
    let slot := if slot.append then { slot with cursor := slot.len } else slot
    if fileCap < count ∨ fileCap - count < slot.cursor then (disk, slot, .error .enospc)
    else
      let cursor := slot.cursor + count
      (disk,
        { slot with
          data := store slot.data slot.cursor bytes
          cursor := cursor
          len := if slot.len < cursor then cursor else slot.len
          dirty := true },
        .ok (count, []))

/-- `write`. -/
def posixWrite (s : State) (accepts : Nat → Bool) (fd : Int) (null : Bool) (bytes : List Byte) :
    State × Result :=
  if fdIsConsole fd then
    if fd = 0 then (s, .error .ebadf)
    else if null ∧ 0 < bytes.length then (s, .error .efault)
    else if bytes.length = 0 then (s, .ok (0, []))
    else
      let (chunks, ok) := consoleWriteBytes accepts 0 bytes
      ({ s with console := s.console ++ chunks },
        if ok then .ok (bytes.length, []) else .error .eio)
  else onSlot s fd (writeSlot null bytes)

/-- A `long long`. -/
def wrap64 (n : Int) : Int := n.bmod (2 ^ 64)

/-- Where an offset counts from. -/
def seekBase (slot : Slot) (whence : Int) : Option Int :=
  if whence = seekSet then some 0
  else if whence = seekCur then some slot.cursor
  else if whence = seekEnd then some slot.len
  else none

/-- `lseek` on a slot. -/
def seekSlot (offset : BitVec 64) (whence : Int) (disk : Disk) (slot : Slot) :
    Disk × Slot × Result :=
  match seekBase slot whence with
  | none => (disk, slot, .error .einval)
  | some base =>
    let next := wrap64 (base + offset.toInt)
    if next < 0 then (disk, slot, .error .einval)
    else if sizeMax < next ∨ longMax < next then (disk, slot, .error .eoverflow)
    else (disk, { slot with cursor := next.toNat }, .ok (next, []))

def lseek (s : State) (fd : Int) (offset : BitVec 64) (whence : Int) : State × Result :=
  if fdIsConsole fd then (s, .error .espipe) else onSlot s fd (seekSlot offset whence)

/-! ## The machine -/

/-- A call, with what the storage and the console do when it is made. -/
inductive Op where
  | openFile (refusal : Option Refusal) (path : Option CStr) (flags : BitVec 32)
  | close (refusal : Option Refusal) (fd : Int)
  | read (fd : Int) (null : Bool) (count : Nat)
  | write (accepts : Nat → Bool) (fd : Int) (null : Bool) (bytes : List Byte)
  | lseek (fd : Int) (offset : BitVec 64) (whence : Int)

def exec (s : State) : Op → State × Result
  | .openFile refusal path flags => posixOpen s refusal path flags
  | .close refusal fd => posixClose s refusal fd
  | .read fd null count => posixRead s fd null count
  | .write accepts fd null bytes => posixWrite s accepts fd null bytes
  | .lseek fd offset whence => lseek s fd offset whence

def step (s : State) (op : Op) : State := (exec s op).1

end PosixFd
