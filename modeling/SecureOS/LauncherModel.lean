import SecureOS.ProcessModel

/-! # The launcher

`kernel/user/launcher.c`: the table of registered apps, and spawning an app from a manifest in
one of three ways.  A spawn takes a slot of the spawn pool, the next window of the launcher's
arena and a process, and hands the app its capabilities twice: as a bit of the capability table
and as a handle written into the app's scratch bytes.

The three entry points share their steps in `spawnWith`; a `Variant` says what each of them does
on its own.  The windows carry no page table, the memory is the bytes behind the scratch
pointers. -/

namespace Launcher

open Capability CapTable AddressSpace Function

/-- `launcher_result_t`. -/
inductive Result where
  | ok
  | errInvalidApp
  | errNotRegistered
  | errDenied
  | errInternal
  | errInvalidManifest
  | errAspace
  | errProcCreate
  | errHandleMint
  | errScratch
deriving DecidableEq, Repr

/-- `launcher_ownership_role_t`; a caller can pass a number outside the enumeration. -/
inductive OwnershipRole where
  | none
  | owner
  | delegate
  | other (raw : Nat)
deriving DecidableEq, Repr

/-- `launcher_manifest_t`: the array is at least as long as its count says. -/
structure Manifest where
  subjectId : Nat
  autoGrantCaps : Option (List Nat)
  autoGrantCount : Nat
  arenaBytes : BitVec 32
  ownershipRole : OwnershipRole
  counted : ∀ caps, autoGrantCaps = some caps → autoGrantCount ≤ caps.length

/-- `LAUNCHER_MAX_APPS` and `LAUNCHER_SPAWN_MAX`. -/
def launcherMax : Nat := capTableMaxSubjects

/-- `LAUNCHER_OWNER_SUBJECT_ID`. -/
def launcherOwnerSubjectId : Nat := 1

/-- `launcher_app_entry_t`. -/
structure AppEntry where
  used : Bool
  subjectId : Nat
deriving DecidableEq, Repr

/-- `launcher_spawn_slot_t`. -/
structure SpawnSlot where
  inUse : Bool
  pid : BitVec 32
  aspace : Option Window
  handle : BitVec 32
  cap : Nat
deriving DecidableEq, Repr

/-- `launcher_arena_deny_reason_t`. -/
inductive ArenaDeny where
  | none
  | overCap
  | underFloor
deriving DecidableEq, Repr

/-- The arena ceiling in force and the last refusal of one. -/
structure ArenaAudit where
  activeCap : BitVec 32
  lastDeny : ArenaDeny
  lastDenyVal : BitVec 32
  denyCount : BitVec 32
deriving DecidableEq, Repr

/-- `LAUNCHER_SPAWN_ARENA_BYTES`. -/
def launcherSpawnArenaBytes : BitVec 64 :=
  BitVec.ofNat 64 launcherMax * (procKstackBytes + BitVec.ofNat 64 ipcMsgPayloadMax + 64)

/-- Where `g_launcher_arena` lies: an object, so neither at null nor wrapping. -/
structure Arena where
  base : BitVec 64
  nonNull : base ≠ 0
  fits : base.toNat + launcherSpawnArenaBytes.toNat < 2 ^ 64

/-- The bytes behind the scratch pointers. -/
abbrev Memory := BitVec 64 → BitVec 8

/-- The launcher's state with the tables it writes. -/
structure State where
  bits : Bits
  handles : CapHandle.Table
  procs : Process.Procs
  apps : Fin 8 → AppEntry
  spawns : Fin 8 → SpawnSlot
  aspaces : Fin 8 → Window
  aspaceNext : Nat
  arenaReady : Bool
  arenaAudit : ArenaAudit
  memory : Memory
  stdout : List CStr

/-! ## Registered apps -/

def launcherFindEntry (apps : Fin 8 → AppEntry) (s : Nat) : Option (Fin 8) :=
  Fin.find? (fun i => (apps i).used && (apps i).subjectId == s)

def launcherSubjectInRange (s : Nat) : Bool := s < capTableMaxSubjects

def launcherRegisterApp (apps : Fin 8 → AppEntry) (s : Nat) : (Fin 8 → AppEntry) × Result :=
  if !launcherSubjectInRange s then (apps, .errInvalidApp)
  else
    match launcherFindEntry apps s with
    | some _ => (apps, .ok)
    | none =>
      match Fin.find? (fun i => !(apps i).used) with
      | some i => (update apps i ⟨true, s⟩, .ok)
      | none => (apps, .errInternal)

/-- The shape of the two console-write calls: a change of the capability table for a registered app.
    -/
def withRegistered (change : Bits → Nat → Nat → Bits × CapResult) (l : State) (s : Nat) :
    State × Result :=
  if !launcherSubjectInRange s then (l, .errInvalidApp)
  else
    match launcherFindEntry l.apps s with
    | none => (l, .errNotRegistered)
    | some _ =>
      let g := change l.bits s capConsoleWrite
      if g.2 ≠ .ok then ({ l with bits := g.1 }, .errInternal) else ({ l with bits := g.1 }, .ok)

def launcherGrantConsoleWrite (l : State) (s : Nat) : State × Result :=
  withRegistered capTableGrant l s

def launcherRevokeConsoleWrite (l : State) (s : Nat) : State × Result :=
  withRegistered capTableRevoke l s

/-! ## The arena -/

/-- `PROC_ARENA_BYTES_DEFAULT` and `PROC_ARENA_BYTES_MAX`. -/
def procArenaBytesDefault : BitVec 32 := 65536
def procArenaBytesMax : BitVec 32 := 16777216

/-- The refusal of a ceiling. -/
def ArenaAudit.deny (a : ArenaAudit) (reason : ArenaDeny) (requested : BitVec 32) : ArenaAudit :=
  { a with lastDeny := reason, lastDenyVal := requested, denyCount := a.denyCount + 1 }

/-- `launcher_resolve_arena_bytes`: the audit cell, and the ceiling if accepted. -/
def launcherResolveArenaBytes (a : ArenaAudit) (requested : BitVec 32) :
    ArenaAudit × Option (BitVec 32) :=
  if requested = 0 then (a, some procArenaBytesDefault)
  else if requested > procArenaBytesMax then (a.deny .overCap requested, none)
  else if requested < procArenaBytesDefault then (a.deny .underFloor requested, none)
  else (a, some requested)

def launcherArenaAuditReset : ArenaAudit := ⟨procArenaBytesDefault, .none, 0, 0⟩

def launcherArenaRebuild (a : Arena) (l : State) : State :=
  let p := aspacePartition a.base launcherSpawnArenaBytes l.aspaces
  { l with aspaces := p.1, aspaceNext := 0, arenaReady := p.2 = .ok }

/-- `launcher_aspace_claim`: the next window, if one is left. -/
def launcherAspaceClaim (a : Arena) (l : State) : State × Option Window :=
  let l := if !l.arenaReady then launcherArenaRebuild a l else l
  if !l.arenaReady then (l, none)
  else if h : l.aspaceNext < 8 then
    ({ l with aspaceNext := l.aspaceNext + 1 }, some (l.aspaces ⟨l.aspaceNext, h⟩))
  else (l, none)

/-! ## The spawn pool -/

def launcherSpawnSlotAlloc (spawns : Fin 8 → SpawnSlot) : Option (Fin 8) :=
  Fin.find? (fun i => !(spawns i).inUse)

def launcherSpawnSlotFind (spawns : Fin 8 → SpawnSlot) (pid : BitVec 32) : Option (Fin 8) :=
  if pid = Process.pidInvalid then none
  else Fin.find? (fun i => (spawns i).inUse && (spawns i).pid == pid)

/-- A slot without its spawn. -/
def emptySpawn : SpawnSlot := ⟨false, Process.pidInvalid, none, CapHandle.handleNull, 0⟩

/-- `process_destroy` with its result not looked at. -/
def dropProcess (l : State) (pid : BitVec 32) : State :=
  let d := Process.processDestroy l.procs l.handles pid
  { l with procs := d.1, handles := d.2.1 }

/-- The loop body of `launcher_spawn_reset`. -/
def resetSpawnSlot (l : State) (i : Fin 8) : State :=
  let l :=
    if (l.spawns i).inUse && (l.spawns i).pid != Process.pidInvalid then
      dropProcess l (l.spawns i).pid
    else l
  { l with spawns := update l.spawns i emptySpawn }

def launcherSpawnReset (a : Arena) (l : State) : State :=
  launcherArenaRebuild a ((List.finRange 8).foldl resetSpawnSlot l)

/-- The loop body of `launcher_reset`. -/
def resetApp (l : State) (i : Fin 8) : State :=
  let l :=
    if (l.apps i).used then
      { l with bits := (capTableRevoke l.bits (l.apps i).subjectId capConsoleWrite).1 }
    else l
  { l with apps := update l.apps i ⟨false, 0⟩ }

def launcherReset (a : Arena) (l : State) : State :=
  { launcherSpawnReset a ((List.finRange 8).foldl resetApp l) with
    arenaAudit := launcherArenaAuditReset }

/-- `launcher_spawn_destroy`, which `launcher_fs_spawn_destroy` and `launcher_broker_spawn_destroy`
    call. -/
def launcherSpawnDestroy (l : State) (pid : BitVec 32) : State × Result :=
  if pid = Process.pidInvalid then (l, .ok)
  else
    match launcherSpawnSlotFind l.spawns pid with
    | none => (l, .errInvalidApp)
    | some i =>
      let l := dropProcess l (l.spawns i).pid
      ({ l with spawns := update l.spawns i emptySpawn }, .ok)

/-! ## The scratch bytes -/

/-- The byte of a handle at an offset, low byte first. -/
def handleByte (h : BitVec 32) (k : Nat) : BitVec 8 := (h >>> (8 * k)).setWidth 8

/-- The `memset` of the scratch bytes. -/
def scratchClear (mem : Memory) (scratch : BitVec 64) : Memory :=
  fun addr => if (addr - scratch).toNat < ipcMsgPayloadMax then 0 else mem addr

def scratchStoreHandle (mem : Memory) (scratch : BitVec 64) (h : BitVec 32) : Memory :=
  if scratch = 0 then mem
  else fun addr =>
    let k := (addr - scratch).toNat
    if k < 4 then handleByte h k else mem addr

def scratchStoreHandleLe64 (mem : Memory) (bytes : BitVec 64) (h : BitVec 32) : Memory :=
  if bytes = 0 then mem
  else fun addr =>
    let k := (addr - bytes).toNat
    if k < 4 then handleByte h k else if k < 8 then 0 else mem addr

/-! ## Handing over capabilities -/

/-- The two tables a handover writes. -/
abbrev Authority := Bits × CapHandle.Table

/-- A bit and then a handle for one capability. -/
def mintHandle (t : Authority) (s c : Nat) : Authority × Option (BitVec 32) :=
  let g := capTableGrant t.1 s c
  if g.2 ≠ .ok then ((g.1, t.2), none)
  else
    let h := CapHandle.capHandleGrant t.2 s c
    if h.2 = CapHandle.handleNull then ((g.1, h.1), none) else ((g.1, h.1), some h.2)

/-- `want_grant`: the manifest asks for a capability. -/
def Manifest.wantGrant (m : Manifest) : Bool := 0 < m.autoGrantCount

/-- `grant_cap`: the first capability asked for; the others are not looked at. -/
def Manifest.grantCap (m : Manifest) : Nat :=
  if m.wantGrant then (m.autoGrantCaps.bind List.head?).getD 0 else 0

/-- The handover of a console app: nothing if nothing is asked for. -/
def mintConsole (m : Manifest) (t : Authority) : Authority × Option (BitVec 32) :=
  if m.wantGrant then mintHandle t m.subjectId m.grantCap
  else (t, some CapHandle.handleNull)

/-- The handover of a file-system app: reading, and writing if asked for. -/
def mintFs (grantWrite : Bool) (m : Manifest) (t : Authority) :
    Authority × Option (BitVec 32 × BitVec 32) :=
  match mintHandle t m.subjectId capFsRead with
  | (t, none) => (t, none)
  | (t, some readH) =>
    if grantWrite then
      match mintHandle t m.subjectId capFsWrite with
      | (t, none) => (t, none)
      | (t, some writeH) => (t, some (readH, writeH))
    else (t, some (readH, CapHandle.handleNull))

def launcherOwnershipRoleParent (t : Authority) (role : OwnershipRole) : Authority × BitVec 32 :=
  if role = .none then (t, CapHandle.handleNull)
  else
    let g := capTableGrant t.1 launcherOwnerSubjectId capIpcSend
    if g.2 ≠ .ok then ((g.1, t.2), CapHandle.handleNull)
    else
      let h := CapHandle.capHandleGrant t.2 launcherOwnerSubjectId capIpcSend
      ((g.1, h.1), h.2)

/-- The handover of a broker app; with a role its send handle hangs under the launcher's own. -/
def mintBroker (m : Manifest) (t : Authority) : Authority × Option (BitVec 32) :=
  let g := capTableGrant t.1 m.subjectId capIpcSend
  if g.2 ≠ .ok then ((g.1, t.2), none)
  else
    let p := launcherOwnershipRoleParent (g.1, t.2) m.ownershipRole
    if m.ownershipRole ≠ .none ∧ p.2 = CapHandle.handleNull then (p.1, none)
    else
      let h := CapHandle.capHandleGrantChild p.1.2 m.subjectId capIpcSend p.2
      if h.2 = CapHandle.handleNull then ((p.1.1, h.1), none) else ((p.1.1, h.1), some h.2)

/-! ## Spawning -/

/-- What one way of spawning does on its own; `H` is the handles it hands over. -/
structure Variant (H : Type) where
  /-- the test of the capability list, before the arena ceiling -/
  grantsAccepted : Manifest → Bool
  /-- the test of the capability asked for, after the arena ceiling -/
  capAccepted : Manifest → Bool
  registersApp : Bool
  /-- a window without scratch bytes is refused before anything is created -/
  scratchFirst : Bool
  mint : Manifest → Authority → Authority × Option H
  /-- a window without scratch bytes is refused after the handover -/
  scratchLast : Manifest → Bool
  stamp : Manifest → Memory → BitVec 64 → H → Memory
  slotHandle : H → BitVec 32
  slotCap : Manifest → Nat

/-- What a spawn returns through its out parameter. -/
structure Spawned (H : Type) where
  pid : BitVec 32
  aspace : Window
  handles : H

def launcherOwnershipRoleValid : OwnershipRole → Bool
  | .none => true
  | .owner => true
  | .delegate => true
  | .other _ => false

section Spawn

variable {H : Type} (v : Variant H)

/-- The steps from the claimed window on: the app, the process, the handover and the slot. -/
def spawnInto (l : State) (m : Manifest) (arenaCap : BitVec 32) (slot : Fin 8) (as : Window) :
    State × Result × Option (Spawned H) :=
  if v.scratchFirst && as.ipcScratch == 0 then (l, .errScratch, none)
  else
    let reg := if v.registersApp then launcherRegisterApp l.apps m.subjectId else (l.apps, .ok)
    let l := { l with apps := reg.1 }
    if reg.2 ≠ .ok then (l, reg.2, none)
    else
      let p := Process.processCreate l.procs m.subjectId (some as)
      let l := { l with procs := p.1, stdout := l.stdout ++ p.2.2.2 }
      if p.2.1 ≠ .ok then (l, .errProcCreate, none)
      else
        let pid := p.2.2.1
        let mem := if as.ipcScratch = 0 then l.memory else scratchClear l.memory as.ipcScratch
        let minted := v.mint m (l.bits, l.handles)
        let l := { l with memory := mem, bits := minted.1.1, handles := minted.1.2 }
        match minted.2 with
        | none => (dropProcess l pid, .errHandleMint, none)
        | some h =>
          if v.scratchLast m && as.ipcScratch == 0 then (dropProcess l pid, .errScratch, none)
          else
            ({ l with
                memory := v.stamp m l.memory as.ipcScratch h
                spawns := update l.spawns slot
                  ⟨true, pid, some as, v.slotHandle h, v.slotCap m⟩
                arenaAudit :=
                  { l.arenaAudit with
                    activeCap := arenaCap, lastDeny := .none, lastDenyVal := 0 } },
              .ok, some ⟨pid, as, h⟩)

/-- The steps all three spawns share, with a place for what they return. -/
def spawnWith (a : Arena) (l : State) (manifest : Option Manifest) :
    State × Result × Option (Spawned H) :=
  match manifest with
  | none => (l, .errInvalidManifest, none)
  | some m =>
    if !launcherOwnershipRoleValid m.ownershipRole then (l, .errInvalidManifest, none)
    else if !launcherSubjectInRange m.subjectId || m.subjectId == 0 then
      (l, .errInvalidManifest, none)
    else if !v.grantsAccepted m then (l, .errInvalidManifest, none)
    else
      match launcherResolveArenaBytes l.arenaAudit m.arenaBytes with
      | (audit, none) => ({ l with arenaAudit := audit }, .errInvalidManifest, none)
      | (_, some arenaCap) =>
        if !v.capAccepted m then (l, .errInvalidManifest, none)
        else
          match launcherSpawnSlotAlloc l.spawns with
          | none => (l, .errInternal, none)
          | some slot =>
            match launcherAspaceClaim a l with
            | (l, none) => (l, .errAspace, none)
            | (l, some as) => spawnInto v l m arenaCap slot as

end Spawn

/-- The console way: at most `CAP_CONSOLE_WRITE`, and the subject is registered as an app. -/
def appVariant : Variant (BitVec 32) where
  grantsAccepted m := !(m.wantGrant && m.autoGrantCaps.isNone)
  capAccepted m := !(m.wantGrant && m.grantCap != capConsoleWrite)
  registersApp := true
  scratchFirst := false
  mint := mintConsole
  scratchLast m := m.wantGrant
  stamp m mem scratch h := if m.wantGrant then scratchStoreHandle mem scratch h else mem
  slotHandle h := h
  slotCap m := m.grantCap

/-- The file-system way: handles at the offsets 8 and 16. -/
def fsVariant (grantWrite : Bool) : Variant (BitVec 32 × BitVec 32) where
  grantsAccepted m := m.autoGrantCount == 0
  capAccepted _ := true
  registersApp := false
  scratchFirst := true
  mint := mintFs grantWrite
  scratchLast _ := false
  stamp _ mem scratch h :=
    scratchStoreHandleLe64 (scratchStoreHandleLe64 mem (scratch + 8) h.1) (scratch + 16) h.2
  slotHandle h := h.1
  slotCap _ := capFsRead

/-- The broker way: the send handle at offset 24. -/
def brokerVariant : Variant (BitVec 32) where
  grantsAccepted m := m.autoGrantCount == 0
  capAccepted _ := true
  registersApp := false
  scratchFirst := true
  mint := mintBroker
  scratchLast _ := false
  stamp _ mem scratch h := scratchStoreHandleLe64 mem (scratch + 24) h
  slotHandle h := h
  slotCap _ := capIpcSend

def launcherSpawnAppFromManifest (a : Arena) (l : State) (manifest : Option Manifest) :
    State × Result × Option (Spawned (BitVec 32)) :=
  spawnWith appVariant a l manifest

def launcherFsSpawnAppWithFsCaps (a : Arena) (l : State) (manifest : Option Manifest)
    (grantWrite : Bool) : State × Result × Option (Spawned (BitVec 32 × BitVec 32)) :=
  spawnWith (fsVariant grantWrite) a l manifest

def launcherBrokerSpawnAppWithBrokerCap (a : Arena) (l : State) (manifest : Option Manifest) :
    State × Result × Option (Spawned (BitVec 32)) :=
  spawnWith brokerVariant a l manifest

/-! ## The launcher as a machine -/

/-- One of the three spawns, with its arguments. -/
inductive SpawnCall where
  | app (manifest : Option Manifest)
  | fs (manifest : Option Manifest) (grantWrite : Bool)
  | broker (manifest : Option Manifest)

/-- The state and the result of a spawn. -/
def spawn (a : Arena) (l : State) : SpawnCall → State × Result
  | .app manifest =>
    let r := launcherSpawnAppFromManifest a l manifest
    (r.1, r.2.1)
  | .fs manifest grantWrite =>
    let r := launcherFsSpawnAppWithFsCaps a l manifest grantWrite
    (r.1, r.2.1)
  | .broker manifest =>
    let r := launcherBrokerSpawnAppWithBrokerCap a l manifest
    (r.1, r.2.1)

/-- A call on the launcher. -/
inductive LauncherOp where
  | registerApp (s : Nat)
  | grantConsoleWrite (s : Nat)
  | revokeConsoleWrite (s : Nat)
  | spawn (call : SpawnCall)
  | destroy (pid : BitVec 32)
  | spawnReset
  | reset

/-- The state a call leaves. -/
def step (a : Arena) (l : State) : LauncherOp → State
  | .registerApp s => { l with apps := (launcherRegisterApp l.apps s).1 }
  | .grantConsoleWrite s => (launcherGrantConsoleWrite l s).1
  | .revokeConsoleWrite s => (launcherRevokeConsoleWrite l s).1
  | .spawn call => (spawn a l call).1
  | .destroy pid => (launcherSpawnDestroy l pid).1
  | .spawnReset => launcherSpawnReset a l
  | .reset => launcherReset a l

/-- What others do to the tables the launcher uses. -/
inductive OutsideOp where
  | tableGrant (s c : Nat)
  | tableRevoke (s c : Nat)
  | handle (op : CapHandle.HandleOp)
  | processCreate (s : Nat) (aspace : Option Window)
  | processDestroy (pid : BitVec 32)

/-- The state it leaves. -/
def outsideStep (l : State) : OutsideOp → State
  | .tableGrant s c => { l with bits := (capTableGrant l.bits s c).1 }
  | .tableRevoke s c => { l with bits := (capTableRevoke l.bits s c).1 }
  | .handle op => { l with handles := CapHandle.step l.handles op }
  | .processCreate s aspace =>
    let p := Process.processCreate l.procs s aspace
    { l with procs := p.1, stdout := l.stdout ++ p.2.2.2 }
  | .processDestroy pid => dropProcess l pid

/-- A step of the system around the launcher. -/
inductive SysOp where
  | launcher (op : LauncherOp)
  | outside (op : OutsideOp)

/-- The state a step of the system leaves. -/
def sysStep (a : Arena) (l : State) : SysOp → State
  | .launcher op => step a l op
  | .outside op => outsideStep l op

/-- The launcher at boot: static storage, over any capability table. -/
def boot (bits : Bits) : State where
  bits := bits
  handles := CapHandle.capHandleTableReset
  procs := Process.processTableInit
  apps := fun _ => ⟨false, 0⟩
  spawns := fun _ => emptySpawn
  aspaces := fun _ => ⟨0, 0, 0, 0⟩
  aspaceNext := 0
  arenaReady := false
  arenaAudit := launcherArenaAuditReset
  memory := fun _ => 0
  stdout := []

end Launcher
