import SecureOS.LauncherRunProofs

/-! # The authority of a spawn ends with the spawn, or not

A spawn gives its subject every capability twice, as a bit of the capability table and as a
handle.  Destroying the spawn goes through `process_destroy`, which revokes the handles of the
subject; nothing takes the bits back.

* `spawn_authority_ends` — after a destroy the recorded capabilities are denied exactly when
  somebody else had cleared the bits before. -/

namespace Launcher

open CapHandle (capGateCheckHandle capHandleOwner grantChild_grants)
open Capability CapTable AddressSpace MachineRun Function List Option CapHandle Process

/-! ## Records of what was handed over -/

/-- What a spawn handed over: the subject and a handle for each capability. -/
structure Record where
  subject : Nat
  granted : List (Nat × BitVec 32)
deriving DecidableEq

/-- The capabilities a console app gets, with their handles. -/
def appGranted (m : Manifest) (h : BitVec 32) : List (Nat × BitVec 32) :=
  if m.wantGrant then [(m.grantCap, h)] else []

/-- What the filesystem variant hands over. -/
def fsGranted (grantWrite : Bool) (_ : Manifest) (h : BitVec 32 × BitVec 32) :
    List (Nat × BitVec 32) :=
  (capFsRead, h.1) :: if grantWrite then [(capFsWrite, h.2)] else []

/-- What the broker variant hands over. -/
def brokerGranted (_ : Manifest) (h : BitVec 32) : List (Nat × BitVec 32) := [(capIpcSend, h)]

/-- The record of a spawn, from its manifest and what it returned. -/
def recordOf {H : Type} (granted : Manifest → H → List (Nat × BitVec 32))
    (manifest : Option Manifest) (out : Option (Spawned H)) : Record :=
  match manifest, out with
  | some m, some s => ⟨m.subjectId, granted m s.handles⟩
  | _, _ => ⟨0, []⟩

/-- The record of a spawn. -/
def spawnRecord (a : Arena) (l : State) : SpawnCall → Record
  | .app manifest => recordOf appGranted manifest (launcherSpawnAppFromManifest a l manifest).2.2
  | .fs manifest grantWrite =>
    recordOf (fsGranted grantWrite) manifest
      (launcherFsSpawnAppWithFsCaps a l manifest grantWrite).2.2
  | .broker manifest =>
    recordOf brokerGranted manifest (launcherBrokerSpawnAppWithBrokerCap a l manifest).2.2

/-- A call on the launcher, or what others do to the tables; they destroy no process of its spawns.
    -/
inductive PoolOp where
  | launcher (op : LauncherOp)
  | tableGrant (s c : Nat)
  | tableRevoke (s c : Nat)
  | handle (op : HandleOp)
  | processCreate (s : Nat) (aspace : Option Window)

/-- The same as a step of the system. -/
def PoolOp.sys : PoolOp → SysOp
  | .launcher op => .launcher op
  | .tableGrant s c => .outside (.tableGrant s c)
  | .tableRevoke s c => .outside (.tableRevoke s c)
  | .handle op => .outside (.handle op)
  | .processCreate s aspace => .outside (.processCreate s aspace)

/-- The launcher with the record of each slot and the pairs others gave. -/
structure World where
  launcher : State
  records : Fin 8 → Record
  independent : Nat → Nat → Bool

/-- The step gives a pair its bit on behalf of no spawn of that subject: a plain grant, the console
    call, or the launcher's own parent handle for an app with a role. -/
def gives (a : Arena) (l : State) : PoolOp → Nat → Nat → Bool
  | .tableGrant s' c', s, c => s = s' ∧ c = c'
  | .launcher (.grantConsoleWrite s'), s, c =>
    s = s' ∧ c = capConsoleWrite ∧ (launcherGrantConsoleWrite l s').2 = .ok
  | .launcher (.spawn (.broker (some m))), s, c =>
    s = launcherOwnerSubjectId ∧ c = capIpcSend ∧ m.subjectId ≠ launcherOwnerSubjectId
      ∧ m.ownershipRole ≠ .none
      ∧ ((spawn a l (.broker (some m))).2 = .ok
        ∨ (spawn a l (.broker (some m))).2 = .errHandleMint)
  | _, _, _ => false

/-- The records after a step: a spawn that goes through writes that of its slot. -/
def recordStep (a : Arena) (w : World) : PoolOp → Fin 8 → Record
  | .launcher (.spawn call) =>
    match launcherSpawnSlotAlloc w.launcher.spawns with
    | some slot =>
      if (spawn a w.launcher call).2 = .ok then
        update w.records slot (spawnRecord a w.launcher call)
      else w.records
    | none => w.records
  | _ => w.records

/-- The world a step leaves; a pair others gave stays so while its bit is set. -/
def worldStep (a : Arena) (w : World) (op : PoolOp) : World where
  launcher := sysStep a w.launcher op.sys
  records := recordStep a w op
  independent := fun s c =>
    (w.independent s c || gives a w.launcher op s c)
      && capTableCheck (sysStep a w.launcher op.sys).bits s c == .ok

/-- The world a run of steps from boot reaches; the bits set at boot are others'. -/
def reached (a : Arena) (bits : Bits) (ops : List PoolOp) : World :=
  run (worldStep a) ⟨boot bits, fun _ => ⟨0, []⟩, fun s c => capTableCheck bits s c == .ok⟩ ops

/-! ## Slots and processes -/

/-- The pid of a slot in use names a live process of the recorded subject. -/
structure PoolOk (procs : Procs) (spawns : Fin 8 → SpawnSlot)
    (records : Fin 8 → Record) : Prop where
  numbered : Numbered procs
  named : ∀ i, (spawns i).inUse = true →
    ∃ k, resolve procs (spawns i).pid = some k
      ∧ (procs k).subject = (records i).subject
  distinct : ∀ i j, (spawns i).inUse = true → (spawns j).inUse = true →
    (spawns i).pid = (spawns j).pid → i = j
  inRange : ∀ i, (spawns i).inUse = true → (records i).subject < 8

section PoolOk

theorem PoolOk.extend (h : PoolOk procs spawns records) (hext : Extends procs procs')
    (hnum : Numbered procs') : PoolOk procs' spawns records where
  numbered := hnum
  named i hi := by
    obtain ⟨k, hk, hs⟩ := h.named i hi
    refine ⟨k, resolve_extends hext hk, ?_⟩
    rw [hext k (live_of_resolve hk)]
    exact hs
  distinct := h.distinct
  inRange := h.inRange

theorem poolOk_of_empty (hnum : Numbered procs)
    (hempty : ∀ i, (spawns i).inUse = false) : PoolOk procs spawns records where
  numbered := hnum
  named i hi := absurd ((hempty i).symm.trans hi) Bool.false_ne_true
  distinct i _ hi := absurd ((hempty i).symm.trans hi) Bool.false_ne_true
  inRange i hi := absurd ((hempty i).symm.trans hi) Bool.false_ne_true

/-- A new spawn has a process whose slot was dead. -/
theorem PoolOk.add (h : PoolOk procs spawns records) (hext : Extends procs procs')
    (hnum : Numbered procs') (hdead : (procs k).live = false) (hk : resolve procs' x.pid = some k)
    (hsub : (procs' k).subject = r.subject) (hr : r.subject < 8) :
    PoolOk procs' (update spawns slot x) (update records slot r) := by
  have hext' := h.extend hext hnum
  -- the process of an older spawn was live when this slot was dead, so the pids differ
  have hother : ∀ i, (spawns i).inUse → (spawns i).pid ≠ x.pid := by
    intro i hi hpid
    obtain ⟨_, hk', -⟩ := h.named i hi
    have hlive := live_of_resolve hk'
    have hsame := resolve_extends hext hk'
    rw [hpid, hk] at hsame
    rw [← some.inj hsame, hdead] at hlive
    exact Bool.false_ne_true hlive
  refine ⟨hnum, fun i hi => ?_, fun i j hi hj hpid => ?_, fun i hi => ?_⟩
  · rcases eq_or_ne i slot with rfl | his
    · simp only [update_self]
      exact ⟨k, hk, hsub⟩
    · simp only [update_of_ne his] at hi ⊢
      exact hext'.named i hi
  · simp only [update_apply] at hi hj hpid
    split_ifs at hi hj hpid with his hjs hjs
    · rw [his, hjs]
    · exact absurd hpid.symm (hother j hj)
    · exact absurd hpid (hother i hi)
    · exact h.distinct i j hi hj hpid
  · simp only [update_apply] at hi ⊢
    split_ifs at hi ⊢
    · exact hr
    · exact h.inRange i hi

/-- Destroying the process of one slot leaves those of the others. -/
theorem PoolOk.remove (h : PoolOk procs spawns records) (handles : Table)
    (hi : (spawns i).inUse) : PoolOk (processDestroy procs handles (spawns i).pid).1
      (update spawns i emptySpawn) records := by
  have hrest : ∀ j, (update spawns i emptySpawn j).inUse →
      j ≠ i ∧ update spawns i emptySpawn j = spawns j := by
    intro j hj
    rw [update_apply] at hj ⊢
    split_ifs at hj ⊢ with hji
    · cases hj
    · exact ⟨hji, rfl⟩
  refine ⟨numbered_destroy h.numbered handles _, fun j hj => ?_,
    fun j j' hj hj' hpid => ?_, fun j hj => ?_⟩
  · obtain ⟨hji, he⟩ := hrest j hj
    rw [he] at hj ⊢
    obtain ⟨k, hk, hs⟩ := h.named j hj
    -- another slot of the pool has another pid, so another process
    have hne : resolve procs (spawns i).pid ≠ some k := fun hik =>
      hji (h.distinct j i hj hi (resolve_inj hk hik))
    have hkept := processDestroy_other procs handles hne
    exact ⟨k, resolve_kept hk (by rw [hkept]) (by rw [hkept]), by rw [hkept]; exact hs⟩
  · have he := (hrest j hj).2
    have he' := (hrest j' hj').2
    rw [he] at hj hpid
    rw [he'] at hj' hpid
    exact h.distinct j j' hj hj' hpid
  · rw [(hrest j hj).2] at hj
    exact h.inRange j hj

end PoolOk

/-! ## What a spawn does to the pool -/

/-- A failed spawn keeps the slots and the live processes; one that goes through fills the free slot
    with the pid of a new process of its subject. -/
inductive PoolStep (l l' : State) (r : Result) (s : Nat) : Prop where
  | failed (hr : r ≠ .ok) (hspawns : l'.spawns = l.spawns)
      (hext : Extends l.procs l'.procs) (hnum : Numbered l'.procs)
  | added (slot : Fin 8) (x : SpawnSlot) (k : Fin 16) (hr : r = .ok)
      (hslot : launcherSpawnSlotAlloc l.spawns = some slot)
      (hspawns : l'.spawns = update l.spawns slot x)
      (hdead : (l.procs k).live = false) (hk : resolve l'.procs x.pid = some k)
      (hsub : (l'.procs k).subject = s) (hs : s < 8)
      (hext : Extends l.procs l'.procs) (hnum : Numbered l'.procs)

theorem spawnWith_pool (v : Variant H)
    (granted : Manifest → H → List (Nat × BitVec 32)) (h : LauncherOk a l)
    (hnum : Numbered l.procs) (manifest : Option Manifest) :
    PoolStep l (spawnWith v a l manifest).1 (spawnWith v a l manifest).2.1
      (recordOf granted manifest (spawnWith v a l manifest).2.2).subject := by
  have hends := spawnWith_ends v h.arena h.apps manifest
  have hext : ∀ m k, Extends l.procs (created a l m k).1 := fun _ _ => extends_create _ _ _
  have hnum' : ∀ m k, Numbered (created a l m k).1 := fun _ _ => numbered_create hnum _ _
  generalize spawnWith v a l manifest = out at hends ⊢
  cases hends with
  | refused _ hr => exact .failed hr rfl (fun _ _ => rfl) hnum
  | noProcess => exact .failed (by simp) rfl (hext _ _) (hnum' _ _)
  | @noHandles k _ m _ hp =>
    -- the process is created and destroyed again: its slot was dead before
    obtain ⟨j, hdead, hj, -⟩ := resolve_create hnum hp
    refine .failed (by simp) rfl (fun i hi => ?_) (numbered_destroy (hnum' _ _) _ _)
    have hij : resolve (created a l m k).1 (created a l m k).2.2.1 ≠ some i := by
      intro hi'
      rw [some.inj (hj.symm.trans hi')] at hdead
      exact Bool.false_ne_true (hdead.symm.trans hi)
    exact (processDestroy_other _ _ hij).trans (hext m k i hi)
  | spawned hb hp =>
    obtain ⟨j, hdead, hj, hsub⟩ := resolve_create hnum hp
    exact .added _ _ j rfl hb.slot rfl hdead hj hsub (subject_of_accepts v hb.accepts) (hext _ _)
      (hnum' _ _)

theorem spawn_pool (h : LauncherOk a l) (hnum : Numbered l.procs) (call : SpawnCall) :
    PoolStep l (spawn a l call).1 (spawn a l call).2 (spawnRecord a l call).subject := by
  cases call with
  | app manifest => exact spawnWith_pool appVariant appGranted h hnum manifest
  | fs manifest grantWrite =>
    exact spawnWith_pool (fsVariant grantWrite) (fsGranted grantWrite) h hnum manifest
  | broker manifest => exact spawnWith_pool brokerVariant brokerGranted h hnum manifest

/-! ## The pool over a run -/

theorem resetSpawns_spawns (l : State) :
    ((List.finRange 8).foldl resetSpawnSlot l).spawns = fun _ => emptySpawn := by
  have hrow : ∀ (l : State) (i : Fin 8),
      TableScan.rewriteRow (fun _ _ => true) (fun _ => emptySpawn) l.spawns i
        = (resetSpawnSlot l i).spawns := by
    intro l i
    rw [(resetSpawnSlot_frame l i).2]
    rfl
  rw [← foldl_hom State.spawns hrow, TableScan.foldl_rewriteRow]
  rfl

theorem resetSpawns_numbered : ∀ (rows : List (Fin 8)) (l : State), Numbered l.procs →
      Numbered (rows.foldl resetSpawnSlot l).procs := by
  intro rows
  induction rows with
  | nil => intro l h; exact h
  | cons _ _ ih =>
    intro _ h
    apply ih
    rw [resetSpawnSlot]
    split
    · exact numbered_destroy h _ _
    · exact h

theorem resetApps_procs :
    ∀ (rows : List (Fin 8)) (l : State), (rows.foldl resetApp l).procs = l.procs := by
  intro rows
  induction rows with
  | nil => intro l; rfl
  | cons _ _ ih =>
    intro _
    rw [foldl_cons, ih]
    unfold resetApp
    split <;> rfl

theorem spawnReset_pool (a : Arena) (h : Numbered l.procs) (records : Fin 8 → Record) :
    PoolOk (launcherSpawnReset a l).procs (launcherSpawnReset a l).spawns records := by
  refine poolOk_of_empty (resetSpawns_numbered _ _ h) (fun i => ?_)
  show (((List.finRange 8).foldl resetSpawnSlot l).spawns i).inUse = false
  rw [resetSpawns_spawns]
  rfl

/-- The world's invariant: the pool is in order, and a bit others gave is set. -/
structure WorldOk (a : Arena) (w : World) : Prop where
  launcher : LauncherOk a w.launcher
  pool : PoolOk w.launcher.procs w.launcher.spawns w.records
  backed : ∀ s c, w.independent s c = true → capTableCheck w.launcher.bits s c = .ok

theorem recordStep_failed (hr : (spawn a w.launcher call).2 ≠ .ok) :
    recordStep a w (.launcher (.spawn call)) = w.records := by
  rw [recordStep]
  cases launcherSpawnSlotAlloc w.launcher.spawns with
  | none => rfl
  | some => exact if_neg hr

theorem pool_step (h : WorldOk a w) (op : PoolOp) :
    PoolOk (worldStep a w op).launcher.procs (worldStep a w op).launcher.spawns
      (worldStep a w op).records := by
  have hreg : ∀ call s, PoolOk (withRegistered call w.launcher s).1.procs
      (withRegistered call w.launcher s).1.spawns w.records := by
    intro call s
    obtain ⟨_, he⟩ := withRegistered_frame call w.launcher s
    rw [he]
    exact h.pool
  cases op with
  | processCreate =>
    exact h.pool.extend (extends_create _ _ _) (numbered_create h.pool.numbered _ _)
  | launcher op =>
    cases op with
    | registerApp => exact h.pool
    | grantConsoleWrite s => exact hreg capTableGrant s
    | revokeConsoleWrite s => exact hreg capTableRevoke s
    | spawn call =>
      show PoolOk (spawn a w.launcher call).1.procs (spawn a w.launcher call).1.spawns
        (recordStep a w (.launcher (.spawn call)))
      cases spawn_pool h.launcher h.pool.numbered call with
      | failed hr hspawns hext hnum =>
        rw [hspawns, recordStep_failed hr]
        exact h.pool.extend hext hnum
      | added _ _ _ hr hslot hspawns hdead hk hsub hs hext hnum =>
        rw [hspawns, recordStep, hslot]
        dsimp only
        rw [if_pos hr]
        exact h.pool.add hext hnum hdead hk hsub hs
    | destroy pid =>
      show PoolOk (launcherSpawnDestroy w.launcher pid).1.procs
        (launcherSpawnDestroy w.launcher pid).1.spawns w.records
      obtain he | ⟨_, hi, he⟩ := spawnDestroy_cases w.launcher pid
      · rw [he]; exact h.pool
      · rw [he]; exact h.pool.remove w.launcher.handles hi
    | spawnReset => exact spawnReset_pool a h.pool.numbered _
    | reset =>
      exact spawnReset_pool a (l := (List.finRange 8).foldl resetApp w.launcher)
        (by rw [resetApps_procs]; exact h.pool.numbered) _
  | _ => exact h.pool

theorem worldOk_step (h : WorldOk a w) (op : PoolOp) : WorldOk a (worldStep a w op) where
  launcher := launcherOk_sysStep h.launcher op.sys
  pool := pool_step h op
  backed _ _ hi := beq_iff_eq.mp (Bool.and_eq_true_iff.mp hi).2

theorem worldOk_reached (a : Arena) (bits : Bits) (ops : List PoolOp) :
    WorldOk a (reached a bits ops) := by
  refine run_inv_all (I := WorldOk a) (fun _ op h => worldOk_step h op) ops _ ⟨?_, ?_, ?_⟩
  · exact launcherOk_boot a bits
  · exact poolOk_of_empty (fun _ => (show (1 : BitVec 16) ≠ 0 by decide)) (fun _ => rfl)
  · intro _ _ hi
    exact beq_iff_eq.mp hi

/-! ## The handover -/

/-- A capability and a handle pass both gates for the subject. -/
def Passes (t : Authority) (s : Nat) (p : Nat × BitVec 32) : Prop :=
  capTableCheck t.1 s p.1 = .ok ∧ capGateCheckHandle t.2 p.2 p.1 = true

/-- What the handover reports passes both gates for the subject. -/
def HandsOver {H : Type} (v : Variant H) (granted : Manifest → H → List (Nat × BitVec 32)) : Prop :=
  ∀ (m : Manifest) (t : Authority) (h : H), v.accepts m → (v.mint m t).2 = some h →
    ∀ p ∈ granted m h, Passes (v.mint m t).1 m.subjectId p

/-- One more bit and handle: the new pair passes, and so does what did before. -/
theorem mintHandle_passes (hv : ValidPair s c) (hm : mintHandle t s c = (t', some h)) :
    Passes t' s (c, h) ∧ ∀ p, Passes t s p → Passes t' s p := by
  rw [mintHandle] at hm
  dsimp only at hm
  rw [if_neg (not_not.mpr ((capTableGrant_ok_iff t.1 s c).mpr hv))] at hm
  split_ifs at hm with hn
  · cases hm
  · cases hm
    have hgrants := grantChild_grants t.2 s c CapHandle.handleNull
    refine ⟨⟨(capTableCheck_grant ..).mpr (Or.inl ⟨hv, rfl, rfl⟩), (hgrants.answers hn).1⟩, ?_⟩
    rintro p ⟨hbit, hgate⟩
    exact ⟨(capTableCheck_grant ..).mpr (Or.inr hbit), hgrants.gate hgate⟩

theorem app_hands_over : HandsOver appVariant appGranted := by
  intro m t h hacc hm p hmem
  have hs := subject_of_accepts _ hacc
  change (mintConsole m t).2 = some h at hm
  show Passes (mintConsole m t).1 m.subjectId p
  rw [appGranted] at hmem
  rw [mintConsole] at hm ⊢
  split_ifs at hmem hm ⊢ with hw
  · obtain rfl := mem_singleton.mp hmem
    have hcap : m.grantCap = capConsoleWrite := by
      simp only [Variant.accepts, Bool.and_eq_true] at hacc
      simpa [appVariant, hw] using hacc.2
    exact (mintHandle_passes (by rw [hcap]; exact ⟨hs, by decide, by decide⟩)
      (Prod.ext rfl hm)).1
  · cases hmem

theorem fs_hands_over (grantWrite : Bool) :
    HandsOver (fsVariant grantWrite) (fsGranted grantWrite) := by
  intro m t h hacc hm
  have hs := subject_of_accepts _ hacc
  change (mintFs grantWrite m t).2 = some h at hm
  show ∀ p ∈ fsGranted grantWrite m h, Passes (mintFs grantWrite m t).1 m.subjectId p
  unfold mintFs at hm ⊢
  rcases hread : mintHandle t m.subjectId capFsRead with ⟨t', _ | r⟩
  · rw [hread] at hm
    cases hm
  · rw [hread] at hm
    have hr := (mintHandle_passes ⟨hs, by decide, by decide⟩ hread).1
    cases grantWrite with
    | false =>
      obtain rfl := some.inj hm
      simpa [fsGranted] using hr
    | true =>
      rcases hwrite : mintHandle t' m.subjectId capFsWrite with ⟨t'', _ | r'⟩
      · simp [hwrite] at hm
      · -- the second handle leaves what the first one gave
        obtain ⟨hw, hkept⟩ := mintHandle_passes ⟨hs, by decide, by decide⟩ hwrite
        simp only [hwrite, if_true] at hm ⊢
        obtain rfl := some.inj hm
        simpa [fsGranted] using ⟨hkept _ hr, hw⟩

theorem broker_hands_over : HandsOver brokerVariant brokerGranted := by
  intro m t h hacc hm p hmem
  have hbit : capTableCheck (capTableGrant t.1 m.subjectId capIpcSend).1 m.subjectId capIpcSend
      = .ok := (capTableCheck_grant ..).mpr
    (Or.inl ⟨⟨subject_of_accepts _ hacc, by decide, by decide⟩, rfl, rfl⟩)
  -- the launcher's own grant comes in between and leaves the bit
  have hparent : capTableCheck (launcherOwnershipRoleParent
      ((capTableGrant t.1 m.subjectId capIpcSend).1, t.2) m.ownershipRole).1.1 m.subjectId
        capIpcSend = .ok := by
    unfold launcherOwnershipRoleParent
    split
    · exact hbit
    · dsimp only
      split <;> exact (capTableCheck_grant ..).mpr (Or.inr hbit)
  change (mintBroker m t).2 = some h at hm
  show Passes (mintBroker m t).1 m.subjectId p
  obtain rfl := mem_singleton.mp hmem
  rw [mintBroker] at hm ⊢
  dsimp only at hm ⊢
  split_ifs at hm ⊢ with _ _ hn
  obtain rfl := some.inj hm
  exact ⟨hparent, ((grantChild_grants ..).answers hn).1⟩

theorem spawnWith_hands_over (hv : HandsOver v granted)
    (h : LauncherOk a l) (manifest : Option Manifest) (hok : (spawnWith v a l manifest).2.1 = .ok) :
    let out := spawnWith v a l manifest
    let record := recordOf granted manifest out.2.2
    ∀ p ∈ record.granted, Passes (out.1.bits, out.1.handles) record.subject p := by
  have hends := spawnWith_ends v h.arena h.apps manifest
  generalize spawnWith v a l manifest = out at hends hok ⊢
  cases hends with
  | refused _ hr => exact absurd hok hr
  | noProcess | noHandles => cases hok
  | spawned hb _ hm => exact hv _ _ _ hb.accepts hm

/-- **THE HANDOVER**: in every reachable state, what a spawn that goes through records passes the
    bit check of its subject and the handle gate. -/
theorem spawn_hands_over (a : Arena) (bits : Bits) (ops : List SysOp) (call : SpawnCall) :
    let l := run (sysStep a) (boot bits) ops
    let out := spawn a l call
    out.2 = .ok → ∀ p ∈ (spawnRecord a l call).granted,
      Passes (out.1.bits, out.1.handles) (spawnRecord a l call).subject p := by
  intro l out hok
  have h := launcherOk_run a bits ops
  cases call with
  | app manifest => exact spawnWith_hands_over app_hands_over h manifest hok
  | fs manifest grantWrite => exact spawnWith_hands_over (fs_hands_over grantWrite) h manifest hok
  | broker manifest => exact spawnWith_hands_over broker_hands_over h manifest hok

/-- A console app is spawned, and others end its process and take its bit. -/
def endedByOthers : List SysOp :=
  [.launcher (.spawn (.app (some (consoleManifest 2)))), .outside (.processDestroy 0x00010000),
    .outside (.tableRevoke 2 capConsoleWrite)]

/-- A manifest without grants. -/
def plainManifest (s : Nat) : Manifest := ⟨s, none, 0, 0, .none, by simp⟩

/-- The spawn after them may read and write files. -/
theorem spawn_hands_over_fs : ∃ r w, ∀ p ∈ [(capFsRead, r), (capFsWrite, w)],
    let out := spawn lowArena (run (sysStep lowArena) (boot capTableReset) endedByOthers)
      (.fs (some (plainManifest 3)) true)
    Passes (out.1.bits, out.1.handles) 3 p := by
  have hrec : spawnRecord lowArena (run (sysStep lowArena) (boot capTableReset) endedByOthers)
      (.fs (some (plainManifest 3)) true)
        = ⟨3, [(capFsRead, 0x40010001), (capFsWrite, 0x40010002)]⟩ := by
    decide +kernel
  have h := spawn_hands_over lowArena capTableReset endedByOthers
    (.fs (some (plainManifest 3)) true) (by decide +kernel)
  rw [hrec] at h
  exact ⟨_, _, h⟩

/-! ## The end of a spawn -/

/-- Another live spawn or somebody else gives the pair. -/
def GivenElsewhere (w : World) (i : Fin 8) (s c : Nat) : Prop :=
  w.independent s c
    ∨ ∃ j, j ≠ i ∧ (w.launcher.spawns j).inUse ∧ (w.records j).subject = s
      ∧ ∃ g, (c, g) ∈ (w.records j).granted

/-- What a slot's spawn gave, and nobody else gives, is denied at both gates. -/
def Ended (w : World) (i : Fin 8) : Prop :=
  ∀ c g, (c, g) ∈ (w.records i).granted → ¬ GivenElsewhere w i (w.records i).subject c →
    capTableCheck w.launcher.bits (w.records i).subject c ≠ .ok
      ∧ capGateCheckHandle w.launcher.handles g c = false

/-- The bits of a slot's spawn are cleared, and no handle of it has come to name another subject. -/
def BitsCleared (w : World) (i : Fin 8) : Prop :=
  ∀ c g, (c, g) ∈ (w.records i).granted → ¬ GivenElsewhere w i (w.records i).subject c →
    capTableCheck w.launcher.bits (w.records i).subject c ≠ .ok
      ∧ (capGateCheckHandle w.launcher.handles g c →
        capHandleOwner w.launcher.handles g = (w.records i).subject)

/-- The pid of a slot in use finds that slot. -/
theorem spawnSlotFind_pid (h : WorldOk a w) (hi : (w.launcher.spawns i).inUse) :
    (w.launcher.spawns i).pid ≠ pidInvalid
      ∧ launcherSpawnSlotFind w.launcher.spawns (w.launcher.spawns i).pid = some i := by
  obtain ⟨_, hk, -⟩ := h.pool.named i hi
  have hpid : (w.launcher.spawns i).pid ≠ pidInvalid := by
    intro hz
    rw [hz] at hk
    cases hk
  refine ⟨hpid, ?_⟩
  rw [launcherSpawnSlotFind, if_neg hpid, Fin.find?_eq_some_iff]
  refine ⟨by simp [hi], fun j hj => ?_⟩
  have hne := fun hj' hp => Nat.ne_of_lt (Fin.lt_def.mp hj)
    (congrArg Fin.val (h.pool.distinct j i hj' hi hp))
  simpa using hne

theorem spawnDestroy_eq (h : WorldOk a w) (hi : (w.launcher.spawns i).inUse) :
    launcherSpawnDestroy w.launcher (w.launcher.spawns i).pid
      = ({ dropProcess w.launcher (w.launcher.spawns i).pid with
            spawns := update w.launcher.spawns i emptySpawn }, .ok)
      ∧ (dropProcess w.launcher (w.launcher.spawns i).pid).handles
        = (capHandleRevokeSubject w.launcher.handles (w.records i).subject).1 := by
  obtain ⟨hpid, hfind⟩ := spawnSlotFind_pid h hi
  obtain ⟨_, hk, hs⟩ := h.pool.named i hi
  constructor
  · rw [launcherSpawnDestroy, if_neg hpid, hfind]
    rfl
  · rw [dropProcess, processDestroy, hk, ← hs]

/-- **THE END OF A SPAWN**: in every reachable world the destroy of a live spawn answers OK, and
    then what it alone gave is denied at both gates exactly when the bits had been cleared before
    and no handle of it had come to name another subject. -/
theorem spawn_authority_ends (a : Arena) (bits : Bits) (ops : List PoolOp) (i : Fin 8) :
    let w := reached a bits ops
    (w.launcher.spawns i).inUse = true →
      (launcherSpawnDestroy w.launcher (w.launcher.spawns i).pid).2 = .ok
        ∧ (Ended (worldStep a w (.launcher (.destroy (w.launcher.spawns i).pid))) i
          ↔ BitsCleared w i) := by
  intro w hi
  have h : WorldOk a w := worldOk_reached a bits ops
  obtain ⟨he, hhandles⟩ := spawnDestroy_eq h hi
  refine ⟨by rw [he], ?_⟩
  have hrange := h.pool.inRange i hi
  obtain ⟨w', hw'⟩ : ∃ w', w' = worldStep a w (.launcher (.destroy (w.launcher.spawns i).pid)) :=
    ⟨_, rfl⟩
  have hl : w'.launcher = { dropProcess w.launcher (w.launcher.spawns i).pid with
      spawns := Function.update w.launcher.spawns i emptySpawn } := by
    rw [hw']
    exact congrArg Prod.fst he
  have hrec : w'.records = w.records := by rw [hw']; rfl
  have hbits : w'.launcher.bits = w.launcher.bits := by rw [hl]; rfl
  have hgate : ∀ g c, capGateCheckHandle w'.launcher.handles g c
      ↔ capGateCheckHandle w.launcher.handles g c = true
        ∧ capHandleOwner w.launcher.handles g ≠ (w.records i).subject := by
    intro g c
    rw [hl]
    rw [hhandles]
    exact gate_revokeSubject (decide_eq_true hrange) g c
  have hgiven : ∀ s c, GivenElsewhere w' i s c ↔ GivenElsewhere w i s c := by
    intro s c
    refine or_congr ?_ (exists_congr fun j => and_congr_right fun hj => ?_)
    · -- the bits are as they were, so a bit others gave is still theirs
      have hind : w'.independent s c
          = ((w.independent s c || false) && capTableCheck w'.launcher.bits s c == .ok) := by
        rw [hw']
        rfl
      rw [hind, hbits, Bool.or_false, Bool.and_eq_true, beq_iff_eq]
      exact ⟨fun hw => hw.1, fun hw => ⟨hw, h.backed s c hw⟩⟩
    · rw [hl, hrec]
      show (Function.update w.launcher.spawns i emptySpawn j).inUse = true ∧ _ ↔ _
      rw [Function.update_of_ne hj]
  rw [← hw']
  unfold Ended BitsCleared
  rw [hrec, hbits]
  refine forall_congr' fun c => forall_congr' fun g => imp_congr_right fun _ =>
    imp_congr (not_congr (hgiven _ c)) (and_congr_right fun _ => ?_)
  rw [← Bool.not_eq_true, hgate]
  tauto

/-- A console app of subject 2 is spawned. -/
def consoleSpawned : List PoolOp := [.launcher (.spawn (.app (some (consoleManifest 2))))]

/-- Its bit is revoked by somebody else before it is destroyed. -/
theorem spawn_authority_ends_revoked : Ended (worldStep lowArena
      (reached lowArena capTableReset (consoleSpawned ++ [.tableRevoke 2 capConsoleWrite]))
      (.launcher (.destroy ((reached lowArena capTableReset
        (consoleSpawned ++ [.tableRevoke 2 capConsoleWrite])).launcher.spawns 0).pid))) 0 := by
  refine (spawn_authority_ends lowArena capTableReset _ 0 (by decide +kernel)).2.mpr ?_
  have hrec : (reached lowArena capTableReset
      (consoleSpawned ++ [.tableRevoke 2 capConsoleWrite])).records 0
        = ⟨2, [(capConsoleWrite, 0x40010000)]⟩ := by
    decide +kernel
  unfold BitsCleared
  rw [hrec]
  intro _ _ hmem _
  rw [mem_singleton] at hmem
  obtain ⟨rfl, rfl⟩ := Prod.mk.inj hmem
  decide +kernel

/-- The world after the spawn is destroyed at once. -/
def consoleDestroyed : World :=
  worldStep lowArena (reached lowArena capTableReset consoleSpawned) (.launcher (.destroy
      ((reached lowArena capTableReset consoleSpawned).launcher.spawns 0).pid))

/-- No spawn is live, nobody else granted anything, and subject 2 may still write to the console. -/
theorem spawn_authority_outlives :
    (launcherSpawnDestroy (reached lowArena capTableReset consoleSpawned).launcher
        ((reached lowArena capTableReset consoleSpawned).launcher.spawns 0).pid).2 = .ok
      ∧ consoleDestroyed.records 0 = ⟨2, [(capConsoleWrite, 0x40010000)]⟩
      ∧ (∀ j, (consoleDestroyed.launcher.spawns j).inUse = false)
      ∧ consoleDestroyed.independent 2 capConsoleWrite = false
      ∧ capTableCheck consoleDestroyed.launcher.bits 2 capConsoleWrite = .ok := by
  decide +kernel

end Launcher
