import Mathlib.Algebra.Ring.Nat
import SecureOS.SofModel
import SecureOS.Lib.ByteStoreProofs

/-! # The filesystem service

`kernel/fs/fs_service.c`: a FAT filesystem with 8.3 names on a block device.
A cluster is one sector; the allocation table has 8192 entries in 64 sectors;
directories are chains of clusters of sixteen slots of 32 bytes.

* `fsReadFileBytes`, `fsListDir`, `fsWriteFileBytes`, `fsMkdir`, `fsUnlink`,
  `fsRmdir` — the service, split after the resolution of the path.

The table is edited in a copy in memory and stored at the end of a call; data
clusters are written as the call goes on. -/

namespace Fs

open Sof (Byte)
open ByteStore (load store)

/-- `fs_result_t` without `FS_OK`. -/
inductive FsError where
  | invalidArg | notFound | storage | noSpace | notDir | alreadyExists | notEmpty
  deriving DecidableEq, Repr

/-- The bytes of a sector. -/
abbrev Block := Nat → Byte

def zeroBlock : Block := fun _ => 0

/-- The entries of the allocation table, as 32-bit values. -/
abbrev Fat := Fin 8192 → Nat

/-- The storage device: its sectors, and which of them the storage layer can read and write. -/
structure Device where
  ready : Bool
  readOk : Nat → Bool
  writeOk : Nat → Bool
  boot : Block
  fat : Fat
  data : Nat → Block

/-- A call on the device; what was written before an error stays written. -/
abbrev FsM := EStateM FsError Device

/-- A call that only reads. -/
def query {α : Type} (f : Device → Except FsError α) : FsM α := fun dev =>
  match f dev with
  | .ok a => .ok a dev
  | .error e => .error e dev

/-- `if (x != FS_OK) return e`. -/
def orFail {α : Type} (x : FsM α) (e : FsError) : FsM α := fun dev =>
  match x dev with
  | .ok a dev' => .ok a dev'
  | .error _ dev' => .error e dev'

/-! ## Bytes -/

def fsReadU16 (b : Block) (off : Nat) : Nat := (b off).toNat + 256 * (b (off + 1)).toNat

def fsReadU32 (b : Block) (off : Nat) : Nat := fsReadU16 b off + 65536 * fsReadU16 b (off + 2)

def fsWriteU16 (b : Block) (off v : Nat) : Block :=
  store b off [BitVec.ofNat 8 v, BitVec.ofNat 8 (v / 256)]

def fsWriteU32 (b : Block) (off v : Nat) : Block :=
  store b off [BitVec.ofNat 8 v, BitVec.ofNat 8 (v / 256), BitVec.ofNat 8 (v / 65536),
    BitVec.ofNat 8 (v / 16777216)]

def fsCharUpper (c : Byte) : Byte := if 0x61 ≤ c ∧ c ≤ 0x7A then c - 0x20 else c

def fsCharLower (c : Byte) : Byte := if 0x41 ≤ c ∧ c ≤ 0x5A then c + 0x20 else c

/-! ## Paths and names -/

/-- A C string: no byte before its end is zero. -/
abbrev CString := { s : List Byte // (0 : Byte) ∉ s }

def fsPathIsSeparator (c : Byte) : Bool := c == 0x2F || c == 0x5C

def fsSkipPathSeparators (cursor : List Byte) : List Byte := cursor.dropWhile fsPathIsSeparator

/-- The inner loop of `fs_next_path_component`, with the room left in the buffer. -/
def fsCopyComponent : (room : Nat) → List Byte → Option (List Byte × List Byte)
  | _, [] => some ([], [])
  | 0, c :: cs => if fsPathIsSeparator c then some ([], c :: cs) else none
  | room + 1, c :: cs =>
    if fsPathIsSeparator c then some ([], c :: cs)
    else (fsCopyComponent room cs).map (fun r => (c :: r.1, r.2))

/-- The next component and the rest; the end and a component of over fifteen bytes are both
    `none`. -/
def fsNextPathComponent (cursor : List Byte) : Option (List Byte × List Byte) :=
  match fsSkipPathSeparators cursor with
  | [] => none
  | c :: cs => fsCopyComponent 15 (c :: cs)

/-- The components `while (fs_next_path_component(..))` goes through, of a byte at least each. -/
def fsPathComponentsFrom : (fuel : Nat) → List Byte → List (List Byte)
  | 0, _ => []
  | fuel + 1, cursor =>
    match fsNextPathComponent cursor with
    | none => []
    | some (component, rest) => component :: fsPathComponentsFrom fuel rest

def fsPathComponents (path : List Byte) : List (List Byte) := fsPathComponentsFrom path.length path

/-- `char name83[11]`. -/
abbrev Name83 := { l : List Byte // l.length = 11 }

/-- The loop of `fs_parse_83_name`: the bytes of the name and of the extension. -/
def fsParse83Loop : List Byte → (name ext : List Byte) → (seenDot : Bool) →
    Option (List Byte × List Byte)
  | [], name, ext, _ => some (name, ext)
  | c :: cs, name, ext, seenDot =>
    if fsPathIsSeparator c then none
    else if c = 0x2E then
      if seenDot then none else fsParse83Loop cs name ext true
    else if !seenDot then
      if 8 ≤ name.length then none
      else fsParse83Loop cs (name ++ [fsCharUpper c]) ext seenDot
    else if 3 ≤ ext.length then none
    else fsParse83Loop cs name (ext ++ [fsCharUpper c]) seenDot

/-- `n` bytes, filled up with blanks. -/
def padded (n : Nat) (l : List Byte) : List Byte := (l ++ List.replicate n 0x20).take n

theorem padded_length (n : Nat) (l : List Byte) : (padded n l).length = n := by
  rw [padded, List.length_take, List.length_append, List.length_replicate]
  omega

def fsParse83Name (path : List Byte) : Option Name83 :=
  match fsParse83Loop path [] [] false with
  | none => none
  | some (name, ext) =>
    if name = [] then none
    else some ⟨padded 8 name ++ padded 3 ext, by
      rw [List.length_append, padded_length, padded_length]⟩

/-- The text of a name in a listing, in a buffer of sixteen bytes. -/
def fsFormatNameForList (name : Name83) (appendSlash : Bool) : List Byte :=
  let notBlank := fun c : Byte => c != 0x20
  let base := (name.1.take 8).takeWhile notBlank
  let ext := name.1.drop 8
  let dotExt := if ext.any notBlank then 0x2E :: (ext.takeWhile notBlank).map fsCharLower else []
  (base.map fsCharLower ++ dotExt ++ if appendSlash then [0x2F] else []).take 15

/-! ## Sectors, clusters and the table -/

def fsClusterToLba (cluster : Nat) : Nat := 65 + (cluster - 2)

def fsReadCluster (dev : Device) (cluster : Nat) : Except FsError Block :=
  if cluster < 2 ∨ 8191 < cluster then .error .invalidArg
  else if dev.readOk (fsClusterToLba cluster) then .ok (dev.data cluster)
  else .error .storage

def fsWriteCluster (cluster : Nat) (b : Block) : FsM Unit := fun dev =>
  if cluster < 2 ∨ 8191 < cluster then .error .invalidArg dev
  else if dev.writeOk (fsClusterToLba cluster) then
    .ok () { dev with data := Function.update dev.data cluster b }
  else .error .storage dev

def fsLoadFat (dev : Device) : Except FsError Fat :=
  if (List.range 64).all (fun i => dev.readOk (1 + i)) then .ok dev.fat else .error .storage

/-- The loop of `fs_store_fat` over the sectors that are left; a sector holds 128 entries. -/
def fsStoreFatSectors (fat : Fat) : List Nat → FsM Unit
  | [] => pure ()
  | i :: rest => fun dev =>
    if dev.writeOk (1 + i) then
      fsStoreFatSectors fat rest
        { dev with fat := fun c => if c.val / 128 = i then fat c else dev.fat c }
    else .error .storage dev

def fsStoreFat (fat : Fat) : FsM Unit := fsStoreFatSectors fat (List.range 64)

/-- The end-of-chain mark; also the mask of a table entry. -/
def fatEntryEoc : Nat := 0x0FFFFFFF

def fsFatGetEntry (fat : Fat) (cluster : Nat) : Nat :=
  if h : cluster < 8192 then fat ⟨cluster, h⟩ % (fatEntryEoc + 1) else 0

def fsFatSetEntry (fat : Fat) (cluster value : Nat) : Fat := fun c =>
  if c.val = cluster then value else fat c

/-- The first free cluster of the allocatable range. -/
def fsFindFreeCluster (fat : Fat) : Option Nat :=
  (List.range' 3 8189).find? (fun c => fsFatGetEntry fat c == 0)

/-- A table entry after which the walks over a directory stop. -/
def endsChain (next : Nat) : Bool := next == fatEntryEoc || next < 3 || 8191 < next

/-- The loop of `fs_free_cluster_chain`; a visited cluster is free, so it ends by the number of
    clusters. -/
def fsFreeChainLoop : (fuel : Nat) → Nat → Fat → Except FsError Unit × Fat
  | 0, _, fat => (.error .storage, fat)
  | fuel + 1, current, fat =>
    if 2 ≤ current ∧ current ≤ 8191 then
      let next := fsFatGetEntry fat current
      let fat := fsFatSetEntry fat current 0
      if next = fatEntryEoc ∨ next = 0 then (.ok (), fat)
      else if next < 3 ∨ 8191 < next then (.error .storage, fat)
      else fsFreeChainLoop fuel next fat
    else (.error .storage, fat)

def fsFreeClusterChain (firstCluster : Nat) (fat : Fat) : Except FsError Unit × Fat :=
  if firstCluster < 3 ∨ 8191 < firstCluster then (.error .invalidArg, fat)
  else fsFreeChainLoop 8192 firstCluster fat

/-! ## Directories -/

/-- What a directory slot says about an entry. -/
structure DirEntry where
  name : Name83
  attr : Byte
  cluster : Nat
  size : Nat
  deriving DecidableEq

def DirEntry.isDir (e : DirEntry) : Bool := e.attr &&& 0x10 != 0

def fsEntryCluster (b : Block) (off : Nat) : Nat :=
  65536 * fsReadU16 b (off + 20) + fsReadU16 b (off + 26)

def fsSetEntryCluster (b : Block) (off cluster : Nat) : Block :=
  fsWriteU16 (fsWriteU16 b (off + 20) (cluster / 65536)) (off + 26) (cluster % 65536)

def entryAt (b : Block) (off : Nat) : DirEntry where
  name := ⟨load b off 11, ByteStore.load_length ..⟩
  attr := b (off + 11)
  cluster := fsEntryCluster b off
  size := fsReadU32 b (off + 28)

/-- A slot to the loops over a directory: marker 0x00, marker 0xE5 or attribute 0x0F, or an entry.
    -/
inductive Slot where
  | unused
  | deleted
  | entry (e : DirEntry)

def slotAt (b : Block) (off : Nat) : Slot :=
  if b off = 0x00 then .unused
  else if b off = 0xE5 ∨ b (off + 11) = 0x0F then .deleted
  else .entry (entryAt b off)

/-- What a loop over a directory does after a slot. -/
inductive Visit (β σ : Type) where
  | done (r : β)
  | nextSlot (s : σ)
  | nextCluster (s : σ)

section Walk

variable {β σ : Type} (visit : Nat → Block → Nat → σ → Except FsError (Visit β σ))
  (finish : σ → Except FsError β)

/-- The inner loop: the slots of one cluster. -/
def scanSlots (cluster : Nat) (b : Block) : List Nat → σ → Except FsError (β ⊕ σ)
  | [], s => .ok (.inr s)
  | off :: offs, s =>
    match visit cluster b off s with
    | .error e => .error e
    | .ok (.done r) => .ok (.inl r)
    | .ok (.nextCluster s) => .ok (.inr s)
    | .ok (.nextSlot s) => scanSlots cluster b offs s

def slotOffsets : List Nat := (List.range 16).map (fun i => 32 * i)

/-- The outer loop: the clusters of the chain, at most as many as the fuel. -/
def walkDir (dev : Device) (fat : Fat) : (fuel : Nat) → Nat → σ → Except FsError β
  | 0, _, s => finish s
  | fuel + 1, current, s =>
    if 2 ≤ current ∧ current ≤ 8191 then
      match fsReadCluster dev current with
      | .error _ => .error .storage
      | .ok b =>
        match scanSlots visit current b slotOffsets s with
        | .error e => .error e
        | .ok (.inl r) => .ok r
        | .ok (.inr s) =>
          let next := fsFatGetEntry fat current
          if endsChain next then finish s else walkDir dev fat fuel next s
    else finish s

end Walk

/-- The answer of the search: a slot, its block, and whether it holds the entry or is free. -/
structure DirSlot where
  cluster : Nat
  offset : Nat
  found : Bool
  block : Block

def findVisit (name : Name83) (cluster : Nat) (b : Block) (off : Nat)
    (free : Option (Nat × Nat)) : Except FsError (Visit DirSlot (Option (Nat × Nat))) :=
  match slotAt b off with
  | .unused => .ok (.nextCluster (free <|> some (cluster, off)))
  | .deleted => .ok (.nextSlot (free <|> some (cluster, off)))
  | .entry e =>
    if e.name = name then .ok (.done ⟨cluster, off, true, b⟩) else .ok (.nextSlot free)

/-- The end of the search: the first free slot, whose cluster is read again. -/
def findFinish (dev : Device) : Option (Nat × Nat) → Except FsError DirSlot
  | none => .error .noSpace
  | some (cluster, off) =>
    match fsReadCluster dev cluster with
    | .error _ => .error .storage
    | .ok b => .ok ⟨cluster, off, false, b⟩

/-- `fs_find_entry_in_dir_ext`, and `fs_find_entry_in_dir` without the cluster. -/
def fsFindEntryInDirExt (dev : Device) (dirCluster : Nat) (name : Name83) :
    Except FsError DirSlot :=
  match fsLoadFat dev with
  | .error _ => .error .storage
  | .ok fat => walkDir (findVisit name) (findFinish dev) dev fat 128 dirCluster none

def emptyVisit (_cluster : Nat) (b : Block) (off : Nat) (_ : Unit) :
    Except FsError (Visit Bool Unit) :=
  match slotAt b off with
  | .unused => .ok (.done true)
  | .deleted => .ok (.nextSlot ())
  | .entry _ => .ok (.done false)

def fsDirectoryIsEmpty (dev : Device) (dirCluster : Nat) : Bool :=
  if dirCluster < 2 ∨ 8191 < dirCluster then false
  else
    match fsLoadFat dev with
    | .error _ => false
    | .ok fat =>
      match walkDir emptyVisit (fun _ => .ok true) dev fat 128 dirCluster () with
      | .ok empty => empty
      | .error _ => false

/-- The copy loop of the listing; the last byte of the buffer is kept for the end. -/
def putChars (size : Nat) : (out text : List Byte) → Except FsError (List Byte)
  | out, [] => .ok out
  | out, c :: cs =>
    if size ≤ out.length + 1 then .error .noSpace else putChars size (out ++ [c]) cs

def entryText (e : DirEntry) : List Byte := fsFormatNameForList e.name e.isDir ++ [0x0A]

def listVisit (size : Nat) (_cluster : Nat) (b : Block) (off : Nat) (out : List Byte) :
    Except FsError (Visit (List Byte) (List Byte)) :=
  match slotAt b off with
  | .unused => .ok (.done out)
  | .deleted => .ok (.nextSlot out)
  | .entry e => (putChars size out (entryText e)).map .nextSlot

/-- The walk to the cluster a directory is extended behind. -/
def fsLastCluster (fat : Fat) : (fuel : Nat) → Nat → Nat
  | 0, current => current
  | fuel + 1, current =>
    let next := fsFatGetEntry fat current
    if endsChain next then current else fsLastCluster fat fuel next

/-- Chain a new cluster to a cluster, in the table in memory. -/
def chainNew (fat : Fat) (current new : Nat) : Fat :=
  fsFatSetEntry (fsFatSetEntry fat current new) new fatEntryEoc

def fsExtendDirectory (dirStart : Nat) (fat : Fat) : FsM (Nat × Fat) := do
  let current := fsLastCluster fat 128 dirStart
  match fsFindFreeCluster fat with
  | none => throw .noSpace
  | some new =>
    orFail (fsWriteCluster new zeroBlock) .storage
    pure (new, chainNew fat current new)

/-! ## Path resolution -/

/-- One step of the resolution: the directory a component names in a directory. -/
def fsStepInto (dev : Device) (cluster : Nat) (component : List Byte) : Except FsError Nat :=
  match fsParse83Name component with
  | none => .error .invalidArg
  | some name =>
    match fsFindEntryInDirExt dev cluster name with
    | .error _ => .error .notFound
    | .ok slot =>
      if !slot.found then .error .notFound
      else if !(entryAt slot.block slot.offset).isDir then .error .notDir
      else .ok (entryAt slot.block slot.offset).cluster

def fsResolveDirCluster (dev : Device) (path : List Byte) : Except FsError Nat :=
  if path = [] ∨ path = [0x2F] then .ok 2
  else (fsPathComponents path).foldlM (fsStepInto dev) 2

/-- The loop of `fs_resolve_parent_and_leaf`, with the pending leaf. -/
def fsResolveLoop (dev : Device) : List (List Byte) → Nat → Option (List Byte) →
    Except FsError (Nat × Option (List Byte))
  | [], current, pending => .ok (current, pending)
  | component :: rest, current, none => fsResolveLoop dev rest current (some component)
  | component :: rest, current, some leaf =>
    match fsStepInto dev current leaf with
    | .error e => .error e
    | .ok next => fsResolveLoop dev rest next (some component)

def fsResolveParentAndLeaf (dev : Device) (path : List Byte) : Except FsError (Nat × Name83) :=
  match fsResolveLoop dev (fsPathComponents path) 2 none with
  | .error e => .error e
  | .ok (_, none) => .error .invalidArg
  | .ok (parent, some leaf) =>
    match fsParse83Name leaf with
    | none => .error .invalidArg
    | some name => .ok (parent, name)

/-! ## The layout -/

def bootSector : Block :=
  let b := store zeroBlock 0 [0xEB, 0x58, 0x90, 0x4D, 0x53, 0x44, 0x4F, 0x53]
  let b := fsWriteU16 b 11 512
  let b := store b 13 [1]
  let b := fsWriteU16 b 14 1
  let b := store b 16 [1]
  let b := fsWriteU16 b 17 0
  let b := fsWriteU16 b 19 0
  let b := store b 21 [0xF8]
  let b := fsWriteU16 b 22 0
  let b := fsWriteU16 b 24 63
  let b := fsWriteU16 b 26 255
  let b := fsWriteU32 b 28 0
  let b := fsWriteU32 b 32 128
  let b := fsWriteU32 b 36 64
  let b := fsWriteU16 b 40 0
  let b := fsWriteU16 b 42 0
  let b := fsWriteU32 b 44 2
  let b := fsWriteU16 b 48 1
  let b := fsWriteU16 b 50 6
  let b := store b 64 [0x80]
  let b := store b 66 [0x29]
  let b := fsWriteU32 b 67 0x1234ABCD
  let b := store b 71 [0x53, 0x45, 0x43, 0x55, 0x52, 0x45, 0x4F, 0x53]
  let b := store b 82 [0x46, 0x41, 0x54, 0x33, 0x32]
  store b 510 [0x55, 0xAA]

def freshFat : Fat :=
  fsFatSetEntry (fsFatSetEntry (fsFatSetEntry (fun _ => 0) 0 0x0FFFFFF8) 1 0xFFFFFFFF) 2
    fatEntryEoc

def fsWriteBoot (b : Block) : FsM Unit := fun dev =>
  if dev.writeOk 0 then .ok () { dev with boot := b } else .error .storage dev

def fsInitializeFat32Layout : FsM Unit := do
  orFail (fsWriteBoot bootSector) .storage
  orFail (fsStoreFat freshFat) .storage
  orFail (fsWriteCluster 2 zeroBlock) .storage

def fsIsFat32BootSectorValid (boot : Block) : Bool :=
  fsReadU16 boot 11 == 512 && boot 13 == 1 && fsReadU16 boot 14 == 1 && boot 16 == 1
    && fsReadU32 boot 36 == 64 && fsReadU32 boot 44 == 2 && boot 510 == 0x55 && boot 511 == 0xAA

def fsEnsureInitialized : FsM Unit := fun dev =>
  if !dev.ready then .error .storage dev
  else if !dev.readOk 0 then .error .storage dev
  else if fsIsFat32BootSectorValid dev.boot then .ok () dev
  else fsInitializeFat32Layout dev

/-! ## The content of a file -/

/-- The next cluster of a file, or a new one behind the last. -/
def fsNextOrExtend (zeroFill : Bool) (fat : Fat) (current : Nat) : FsM (Nat × Fat) :=
  let next := fsFatGetEntry fat current
  if next = fatEntryEoc ∨ next = 0 then
    match fsFindFreeCluster fat with
    | none => throw .noSpace
    | some new =>
      if zeroFill then do
        orFail (fsWriteCluster new zeroBlock) .storage
        pure (new, chainNew fat current new)
      else pure (new, chainNew fat current new)
  else if next < 3 ∨ 8191 < next then throw .storage
  else pure (next, fat)

/-- The walk to the cluster that holds the byte to start at: one step for each block. -/
def fsWalkToStart : (blocks : Nat) → Fat → Nat → FsM (Nat × Fat)
  | 0, fat, current => pure (current, fat)
  | blocks + 1, fat, current => do
    let (next, fat) ← fsNextOrExtend true fat current
    fsWalkToStart blocks fat next

/-- The streaming loop; each round takes at least one byte of the content. -/
def fsStreamContent : (fuel : Nat) → Fat → (current offset : Nat) → List Byte → FsM Fat
  | 0, fat, _, _, _ => pure fat
  | fuel + 1, fat, current, offset, content =>
    if content = [] then pure fat
    else do
      let data ← if offset = 0 then pure zeroBlock
        else orFail (query (fun dev => fsReadCluster dev current)) .storage
      let chunk := content.take (512 - offset)
      orFail (fsWriteCluster current (store data offset chunk)) .storage
      let remaining := content.drop (512 - offset)
      if remaining = [] then pure fat
      else do
        let (next, fat) ← fsNextOrExtend false fat current
        fsStreamContent fuel fat next 0 remaining

/-- Free what is chained behind the first cluster of a file. -/
def truncateChain (firstCluster : Nat) (fat : Fat) : Except FsError Fat :=
  let next := fsFatGetEntry fat firstCluster
  if 3 ≤ next ∧ next ≤ 8191 then
    match fsFreeClusterChain next fat with
    | (.error _, _) => .error .storage
    | (.ok _, fat) => .ok (fsFatSetEntry fat firstCluster fatEntryEoc)
  else .ok (fsFatSetEntry fat firstCluster fatEntryEoc)

/-- The table in memory and the size after the write; the file had `size` bytes. -/
def fsWriteEntryContent (firstCluster : Nat) (content : List Byte) (append : Bool) (size : Nat)
    (fat : Fat) : FsM (Nat × Fat) :=
  if firstCluster < 3 ∨ 8191 < firstCluster then throw .invalidArg
  else do
    let start := if append then size else 0
    let fat ← if append then pure fat else query (fun _ => truncateChain firstCluster fat)
    let (current, fat) ← fsWalkToStart (start / 512) fat firstCluster
    let fat ← fsStreamContent content.length fat current (start % 512) content
    pure ((start + content.length) % 2 ^ 32, fat)

/-- The copy loop of `fs_read_file_bytes`; each round copies at least one byte. -/
def fsReadChain (dev : Device) (fat : Fat) : (fuel : Nat) → (current remaining : Nat) →
    Except FsError (List Byte)
  | 0, _, _ => .ok []
  | fuel + 1, current, remaining =>
    if remaining = 0 then .ok []
    else
      match fsReadCluster dev current with
      | .error _ => .error .storage
      | .ok data =>
        if remaining ≤ 512 then .ok (load data 0 remaining)
        else
          let next := fsFatGetEntry fat current
          if next < 3 ∨ 8191 < next then .error .storage
          else (fsReadChain dev fat fuel next (remaining - 512)).map (load data 0 512 ++ ·)

/-! ## The entries the calls act on -/

def fsReadFileAt (parent : Nat) (name : Name83) (bufferSize : Nat) (dev : Device) :
    Except FsError (List Byte) :=
  match fsFindEntryInDirExt dev parent name with
  | .error _ => .error .notFound
  | .ok slot =>
    let e := entryAt slot.block slot.offset
    if !slot.found then .error .notFound
    else if e.isDir then .error .notDir
    else if bufferSize < e.size then .error .noSpace
    else
      match fsLoadFat dev with
      | .error _ => .error .storage
      | .ok fat => fsReadChain dev fat e.size e.cluster e.size

def fsListDirAt (cluster bufferSize : Nat) (dev : Device) : Except FsError (List Byte) :=
  match fsLoadFat dev with
  | .error _ => .error .storage
  | .ok fat => walkDir (listVisit bufferSize) .ok dev fat 128 cluster []

/-- The slot of an entry to write, and the table in memory: the slot that holds it, a free
    slot, or the first slot of a cluster the directory is extended by. -/
def fsFindOrExtend (fat : Fat) (parent : Nat) (name : Name83) : FsM (DirSlot × Fat) := fun dev =>
  match fsFindEntryInDirExt dev parent name with
  | .ok slot => .ok (slot, fat) dev
  | .error .noSpace =>
    match orFail (fsExtendDirectory parent fat) .noSpace dev with
    | .ok (cluster, fat) dev => .ok (⟨cluster, 0, false, zeroBlock⟩, fat) dev
    | .error e dev => .error e dev
  | .error _ => .error .storage dev

/-- The name, attribute and first cluster of a new entry. -/
def setEntry (b : Block) (off : Nat) (name : Name83) (attr : Byte) (cluster : Nat) : Block :=
  fsSetEntryCluster (store b off (name.1 ++ [attr])) off cluster

/-- The block, first cluster, size and table to write a file with, of a new or a found entry. -/
def openForWrite (slot : DirSlot) (name : Name83) (fat : Fat) :
    Except FsError (Block × Nat × Nat × Fat) :=
  let e := entryAt slot.block slot.offset
  if !slot.found then
    if 512 < slot.offset + 32 then .error .noSpace
    else
      match fsFindFreeCluster fat with
      | none => .error .noSpace
      | some first =>
        .ok (setEntry slot.block slot.offset name 0x20 first, first, 0,
          fsFatSetEntry fat first fatEntryEoc)
  else if e.isDir then .error .notDir
  else if e.cluster < 3 ∨ 8191 < e.cluster then .error .storage
  else .ok (slot.block, e.cluster, e.size, fat)

def fsWriteFileAt (fat : Fat) (parent : Nat) (name : Name83) (content : List Byte)
    (append : Bool) : FsM Unit := do
  let (slot, fat) ← fsFindOrExtend fat parent name
  let (block, first, size, fat) ← query (fun _ => openForWrite slot name fat)
  let (size, fat) ← fsWriteEntryContent first content append size fat
  orFail (fsStoreFat fat) .storage
  orFail (fsWriteCluster slot.cluster (fsWriteU32 block (slot.offset + 28) size)) .storage

def fsMkdirAt (fat : Fat) (parent : Nat) (name : Name83) : FsM Unit := do
  let (slot, fat) ← fsFindOrExtend fat parent name
  if slot.found then
    if (entryAt slot.block slot.offset).isDir then throw .alreadyExists else throw .notDir
  else
    match fsFindFreeCluster fat with
    | none => throw .noSpace
    | some new =>
      let block := fsWriteU32 (setEntry slot.block slot.offset name 0x10 new)
        (slot.offset + 28) 0
      orFail (fsStoreFat (fsFatSetEntry fat new fatEntryEoc)) .storage
      orFail (fsWriteCluster slot.cluster block) .storage
      orFail (fsWriteCluster new zeroBlock) .storage

/-- The search of `fs_unlink` and `fs_rmdir`: a full directory does not hold the name. -/
def fsFindExisting (parent : Nat) (name : Name83) (dev : Device) : Except FsError DirSlot :=
  match fsFindEntryInDirExt dev parent name with
  | .error .noSpace => .error .notFound
  | .error e => .error e
  | .ok slot => if !slot.found then .error .notFound else .ok slot

/-- Free the chain of an entry and mark its slot. -/
def removeEntry (slot : DirSlot) (fat : Fat) : FsM Unit := do
  let fat ← query (fun _ =>
    match fsFreeClusterChain (entryAt slot.block slot.offset).cluster fat with
    | (.error e, _) => .error e
    | (.ok _, fat) => .ok fat)
  orFail (fsStoreFat fat) .storage
  orFail (fsWriteCluster slot.cluster (store slot.block slot.offset [0xE5])) .storage

def fsUnlinkAt (fat : Fat) (parent : Nat) (name : Name83) : FsM Unit := do
  let slot ← query (fsFindExisting parent name)
  let e := entryAt slot.block slot.offset
  if e.isDir then throw .notDir
  else if e.cluster < 3 ∨ 8191 < e.cluster then throw .storage
  else removeEntry slot fat

def fsRmdirAt (fat : Fat) (parent : Nat) (name : Name83) : FsM Unit := do
  let slot ← query (fsFindExisting parent name)
  let e := entryAt slot.block slot.offset
  if !e.isDir then throw .notDir
  else if e.cluster < 3 ∨ 8191 < e.cluster then throw .storage
  else do
    let empty ← query (fun dev => .ok (fsDirectoryIsEmpty dev e.cluster))
    if !empty then throw .notEmpty else removeEntry slot fat

/-! ## The service -/

def fsReadFileBytes (path : CString) (bufferSize : Nat) : FsM (List Byte) := do
  orFail fsEnsureInitialized .storage
  let (parent, name) ← orFail (query (fun dev => fsResolveParentAndLeaf dev path.1)) .notFound
  query (fsReadFileAt parent name bufferSize)

def fsListDir (path : CString) (bufferSize : Nat) : FsM (List Byte) :=
  if bufferSize = 0 then throw .invalidArg
  else do
    orFail fsEnsureInitialized .storage
    let cluster ← orFail (query (fun dev => fsResolveDirCluster dev path.1)) .notFound
    query (fsListDirAt cluster bufferSize)

/-- What the four changing calls start with: the table in memory, the parent and the leaf name. -/
def openParent (path : CString) : FsM (Fat × Nat × Name83) := do
  orFail fsEnsureInitialized .storage
  let fat ← orFail (query fsLoadFat) .storage
  let (parent, name) ← query (fun dev => fsResolveParentAndLeaf dev path.1)
  pure (fat, parent, name)

def fsWriteFileBytes (path : CString) (content : List Byte) (append : Bool) : FsM Unit := do
  let (fat, parent, name) ← openParent path
  fsWriteFileAt fat parent name content append

def fsMkdir (path : CString) : FsM Unit := do
  let (fat, parent, name) ← openParent path
  fsMkdirAt fat parent name

def fsUnlink (path : CString) : FsM Unit := do
  let (fat, parent, name) ← openParent path
  fsUnlinkAt fat parent name

def fsRmdir (path : CString) : FsM Unit :=
  if path.1 = [] ∨ path.1 = [0x2F] then throw .invalidArg
  else do
    let (fat, parent, name) ← openParent path
    fsRmdirAt fat parent name

/-! ## Runs -/

/-- The calls that change the filesystem. -/
inductive FsOp where
  | write (path : CString) (content : List Byte) (append : Bool)
  | mkdir (path : CString)
  | unlink (path : CString)
  | rmdir (path : CString)

def FsOp.path : FsOp → CString
  | .write path _ _ => path
  | .mkdir path => path
  | .unlink path => path
  | .rmdir path => path

def FsOp.call : FsOp → FsM Unit
  | .write path content append => fsWriteFileBytes path content append
  | .mkdir path => fsMkdir path
  | .unlink path => fsUnlink path
  | .rmdir path => fsRmdir path

/-- The device a call leaves, whatever it returned. -/
def FsOp.after (dev : Device) (op : FsOp) : Device :=
  match op.call dev with
  | .ok _ dev' => dev'
  | .error _ dev' => dev'

end Fs
