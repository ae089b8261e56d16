import SecureOS.LauncherSpawnProofs

/-! # The launcher over whole runs

Others create processes and hand out handles between the launcher's calls, so a spawn can meet a
full process table or a full handle table after it has already taken its window. -/

namespace Launcher

open Capability CapTable AddressSpace MachineRun

/-! ## The resets -/

theorem resetApps_apps (l : State) :
    ((List.finRange 8).foldl resetApp l).apps = fun _ => ⟨false, 0⟩ := by
  have hrow : ∀ (l : State) (i : Fin 8),
      TableScan.rewriteRow (fun _ _ => true) (fun _ => (⟨false, 0⟩ : AppEntry)) l.apps i
        = (resetApp l i).apps := by
    intro l i
    unfold resetApp
    cases (l.apps i).used <;> rfl
  rw [← List.foldl_hom State.apps hrow, TableScan.foldl_rewriteRow]
  rfl

theorem resetSpawnSlot_frame (l : State) (i : Fin 8) : (resetSpawnSlot l i).apps = l.apps
      ∧ (resetSpawnSlot l i).spawns = Function.update l.spawns i emptySpawn := by
  unfold resetSpawnSlot
  split <;> exact ⟨rfl, rfl⟩

theorem resetSpawns_apps :
    ∀ (rows : List (Fin 8)) (l : State), (rows.foldl resetSpawnSlot l).apps = l.apps := by
  intro rows
  induction rows with
  | nil => intro l; rfl
  | cons i _ ih =>
    intro l
    rw [List.foldl_cons, ih, (resetSpawnSlot_frame l i).1]

variable {l : State}

theorem spawnReset_ok (a : Arena) (h : AppsOk l.apps) : LauncherOk a (launcherSpawnReset a l) := by
  rw [launcherSpawnReset, rebuild_eq]
  refine ⟨fun _ => rfl, ?_⟩
  rw [resetSpawns_apps]
  exact h

/-! ## The invariant over a run -/

theorem appsOk_unused : AppsOk (fun _ => ⟨false, 0⟩) where
  inRange _ h := absurd h Bool.false_ne_true
  distinct _ _ h := absurd h Bool.false_ne_true

variable {a : Arena}

theorem spawnWith_ok (v : Variant H) (h : LauncherOk a l) (manifest : Option Manifest) :
    LauncherOk a (spawnWith v a l manifest).1 := by
  have happs : ∀ m, AppsOk (registered v l m) := by
    intro m
    unfold registered
    cases v.registersApp with
    | false => exact h.apps
    | true => exact register_appsOk h.apps m.subjectId
  have hends := spawnWith_ends v h.arena h.apps manifest
  generalize spawnWith v a l manifest = out at hends ⊢
  cases hends with
  | refused => exact ⟨h.arena, h.apps⟩
  | noProcess | noHandles | spawned => exact ⟨fun _ => rfl, happs _⟩

/-- The console calls write the capability table only. -/
theorem withRegistered_frame (change : Bits → Nat → Nat → Bits × CapResult) (l : State)
    (s : Nat) : ∃ bits, (withRegistered change l s).1 = { l with bits := bits } := by
  unfold withRegistered
  split
  · exact ⟨l.bits, rfl⟩
  · split
    · exact ⟨l.bits, rfl⟩
    · dsimp only
      split <;> exact ⟨_, rfl⟩

/-- A destroy finds no slot, or drops the process of the slot and empties it. -/
theorem spawnDestroy_cases (l : State) (pid : BitVec 32) : (launcherSpawnDestroy l pid).1 = l
      ∨ ∃ i, (l.spawns i).inUse ∧ (launcherSpawnDestroy l pid).1
        = { dropProcess l (l.spawns i).pid with
            spawns := Function.update l.spawns i emptySpawn } := by
  by_cases hpid : pid = Process.pidInvalid
  · left
    rw [launcherSpawnDestroy, if_pos hpid]
  · unfold launcherSpawnDestroy
    rw [if_neg hpid]
    obtain hf | ⟨i, hf⟩ := Option.eq_none_or_eq_some (launcherSpawnSlotFind l.spawns pid)
    · left
      rw [hf]
    · right
      have hslot : launcherSpawnSlotFind l.spawns pid = some i := hf
      rw [launcherSpawnSlotFind, if_neg hpid, Fin.find?_eq_some_iff] at hf
      refine ⟨i, (Bool.and_eq_true_iff.mp hf.1).1, ?_⟩
      rw [hslot]
      rfl

theorem launcherOk_step (h : LauncherOk a l) (op : LauncherOp) : LauncherOk a (step a l op) := by
  cases op with
  | registerApp s => exact ⟨h.arena, register_appsOk h.apps s⟩
  | grantConsoleWrite s =>
    obtain ⟨_, he⟩ := withRegistered_frame capTableGrant l s
    rw [step, launcherGrantConsoleWrite, he]
    exact ⟨h.arena, h.apps⟩
  | revokeConsoleWrite s =>
    obtain ⟨_, he⟩ := withRegistered_frame capTableRevoke l s
    rw [step, launcherRevokeConsoleWrite, he]
    exact ⟨h.arena, h.apps⟩
  | spawn call =>
    cases call with
    | app manifest => exact spawnWith_ok appVariant h manifest
    | fs manifest grantWrite => exact spawnWith_ok (fsVariant grantWrite) h manifest
    | broker manifest => exact spawnWith_ok brokerVariant h manifest
  | destroy pid =>
    show LauncherOk a (launcherSpawnDestroy l pid).1
    obtain he | ⟨_, -, he⟩ := spawnDestroy_cases l pid
    · rw [he]; exact h
    · rw [he]; exact ⟨h.arena, h.apps⟩
  | spawnReset => exact spawnReset_ok a h.apps
  | reset =>
    have hr := spawnReset_ok a (l := (List.finRange 8).foldl resetApp l)
      (by rw [resetApps_apps]; exact appsOk_unused)
    exact ⟨hr.arena, hr.apps⟩

theorem launcherOk_sysStep (h : LauncherOk a l) (op : SysOp) : LauncherOk a (sysStep a l op) := by
  cases op with
  | launcher op => exact launcherOk_step h op
  | outside op => cases op <;> exact ⟨h.arena, h.apps⟩

theorem launcherOk_boot (a : Arena) (bits : Bits) : LauncherOk a (boot bits) :=
  ⟨fun h => absurd h Bool.false_ne_true, appsOk_unused⟩

theorem launcherOk_run (a : Arena) (bits : Bits) (ops : List SysOp) :
    LauncherOk a (run (sysStep a) (boot bits) ops) :=
  run_inv_all (I := LauncherOk a) (fun _ op h => launcherOk_sysStep h op) ops _
    (launcherOk_boot a bits)

/-! ## Errors without effect -/

/-- The spawn takes a slot and a window and then misses a process slot or a row of the handle table.
    -/
def SpawnCall.Starved (l : State) (call : SpawnCall) : Prop := call.starts l ∧ ¬ call.Supplied l

/-- **FAILED SPAWNS**: in every reachable state a spawn that reports an error leaves the tables, the
    apps and the windows as they were, exactly when it is not starved: it is refused before it takes
    anything, or the tables have what it needs. -/
theorem spawn_failure_inert (a : Arena) (bits : Bits) (ops : List SysOp) (call : SpawnCall) :
    let l := run (sysStep a) (boot bits) ops
    ((spawn a l call).2 ≠ .ok → SameTables l (spawn a l call).1) ↔ ¬ call.Starved l := by
  intro l
  have hok : LauncherOk a l := launcherOk_run a bits ops
  cases spawn_takes hok call with
  | nothing hstarts hr audit he =>
    rw [he]
    exact iff_of_true (fun _ => ⟨rfl, rfl, rfl, rfl, rfl⟩)
      (fun h => Bool.false_ne_true (hstarts.symm.trans h.1))
  | window _ hstarts hk hgone _ hiff =>
    constructor
    · rintro hinert ⟨-, hstarved⟩
      -- the window is gone for good
      have hsame := hinert (fun h => hstarved (hiff.mp h))
      rw [hsame.windows] at hgone
      exact hgone hk
    · intro hstarved herr
      refine absurd (hiff.mpr ?_) herr
      by_contra hsup
      exact hstarved ⟨hstarts, hsup⟩

/-- An arena at the second megabyte. -/
def lowArena : Arena := ⟨0x100000, by decide, by decide⟩

/-- A manifest that asks for the console. -/
def consoleManifest (s : Nat) : Manifest :=
  ⟨s, some [capConsoleWrite], 1, 0, .none, by rintro caps h; cases h; decide⟩

/-- Others took all sixteen process slots. -/
def crowded : State :=
  run (sysStep lowArena) (boot capTableReset) (List.replicate 16 (.outside (.processCreate 3 none)))

/-- The spawn that finds no process slot has registered its subject and used up a window. -/
theorem spawn_failure_leaves_app :
    let out := spawn lowArena crowded (.app (some (consoleManifest 2)))
    out.2 = .errProcCreate ∧ crowded.apps 0 = ⟨false, 0⟩ ∧ out.1.apps 0 = ⟨true, 2⟩
      ∧ (0 : Fin 8) ∈ unclaimed crowded ∧ (0 : Fin 8) ∉ unclaimed out.1 := by
  decide +kernel

/-! ## The capacity of the pool -/

/-- The step resets the pool. -/
def SysOp.resets : SysOp → Bool
  | .launcher .spawnReset => true
  | .launcher .reset => true
  | _ => false

/-- The step takes a window. -/
def takesWindow (l : State) : SysOp → Bool
  | .launcher (.spawn call) => call.starts l
  | _ => false

/-- A step that is no reset takes a window or leaves the arena alone. -/
theorem windowsTaken_step (h : LauncherOk a l) (hop : op.resets = false) :
    windowsTaken (sysStep a l op) = (if takesWindow l op then 1 else 0) + windowsTaken l := by
  cases op with
  | outside op => cases op <;> exact (Nat.zero_add _).symm
  | launcher op =>
    cases op with
    | registerApp => exact (Nat.zero_add _).symm
    | grantConsoleWrite s =>
      obtain ⟨_, he⟩ := withRegistered_frame capTableGrant l s
      rw [sysStep, step, launcherGrantConsoleWrite, he]
      exact (Nat.zero_add _).symm
    | revokeConsoleWrite s =>
      obtain ⟨_, he⟩ := withRegistered_frame capTableRevoke l s
      rw [sysStep, step, launcherRevokeConsoleWrite, he]
      exact (Nat.zero_add _).symm
    | spawn call =>
      show windowsTaken (spawn a l call).1 = (if call.starts l then 1 else 0) + _
      cases spawn_takes h call with
      | nothing hstarts _ _ he =>
        -- turned away, it changes the audit cell only
        rw [he, hstarts]
        exact (Nat.zero_add _).symm
      | window _ hstarts _ _ htaken => rw [htaken, if_pos hstarts, Nat.add_comm]
    | destroy pid =>
      show windowsTaken (launcherSpawnDestroy l pid).1 = 0 + windowsTaken l
      rw [Nat.zero_add]
      obtain he | ⟨_, -, he⟩ := spawnDestroy_cases l pid
      · rw [he]
      · rw [he]; rfl
    | spawnReset | reset => exact absurd hop (by simp [SysOp.resets])

/-- Between resets the windows taken are those the spawns took. -/
theorem windowsTaken_run :
    ∀ (ops : List SysOp) (l : State), LauncherOk a l → (∀ op ∈ ops, op.resets = false) →
      windowsTaken (run (sysStep a) l ops)
        = hits (sysStep a) takesWindow l ops + windowsTaken l := by
  intro ops
  induction ops with
  | nil => intro l _ _; exact (Nat.zero_add _).symm
  | cons op _ ih =>
    intro _ h hops
    have hop := hops op List.mem_cons_self
    rw [run_cons, hits_cons, ih _ (launcherOk_sysStep h op)
      (fun op' hop' => hops op' (List.mem_cons_of_mem op hop')), windowsTaken_step h hop]
    omega

/-- How many spawns are live. -/
def liveSpawns (l : State) : Nat :=
  (Finset.univ.filter (fun i => (l.spawns i).inUse = true)).card

/-- With fewer than eight live spawns a slot is free. -/
theorem slotAlloc_of_liveSpawns (h : liveSpawns l < launcherMax) :
    (launcherSpawnSlotAlloc l.spawns).isSome := by
  rw [Option.isSome_iff_ne_none]
  intro hnone
  have hall : ∀ i, (l.spawns i).inUse := fun i => by simpa using Fin.find?_eq_none_iff.mp hnone i
  have hcard : liveSpawns l = 8 := by
    unfold liveSpawns
    rw [Finset.filter_true_of_mem (fun i _ => hall i)]
    rfl
  exact absurd h (by rw [hcard]; decide)

theorem nextWindow_isSome_iff (l : State) : (nextWindow l).isSome ↔ windowsTaken l < 8 := by
  unfold nextWindow windowsTaken
  cases l.arenaReady with
  | false => simp
  | true => by_cases hn : l.aspaceNext < 8 <;> simp [hn]

/-- **CAPACITY**: in any run since a reset of the spawn pool, with fewer than eight spawns live and
    room in the tables, a spawn with an accepted manifest goes through exactly when fewer than eight
    windows were taken since the reset. -/
theorem spawn_capacity (a : Arena) (bits : Bits) (before ops : List SysOp)
    (hops : ∀ op ∈ ops, op.resets = false) (call : SpawnCall) (m : Manifest)
    (hm : call.manifest = some m) (hacc : call.accepts m = true) :
    let l0 := launcherSpawnReset a (run (sysStep a) (boot bits) before)
    let l := run (sysStep a) l0 ops
    liveSpawns l < launcherMax → call.Supplied l →
      ((spawn a l call).2 = .ok ↔ hits (sysStep a) takesWindow l0 ops < 8) := by
  intro l0 l hlive hsup
  have hreset : LauncherOk a l0 := spawnReset_ok a (launcherOk_run a bits before).apps
  have hzero : windowsTaken l0 = 0 := rfl
  have htaken : windowsTaken l = _ := windowsTaken_run ops _ hreset hops
  have hok : LauncherOk a l :=
    run_inv_all (I := LauncherOk a) (fun _ op h => launcherOk_sysStep h op) ops _ hreset
  rw [hzero, Nat.add_zero] at htaken
  rw [← htaken, ← nextWindow_isSome_iff]
  have hstarts : call.starts l = (nextWindow l).isSome := by
    rw [SpawnCall.starts, hm]
    dsimp only
    rw [hacc, slotAlloc_of_liveSpawns hlive]
    rfl
  rw [← hstarts]
  cases spawn_takes hok call with
  | nothing hno hr => exact iff_of_false hr (by simp [hno])
  | window _ hyes _ _ _ hiff => exact iff_of_true (hiff.mpr hsup) hyes

/-- Spawns of the console app of subject 2, each destroyed at once; the pids differ. -/
def spawnsAndDestroys (n : Nat) : List SysOp :=
  (List.range n).flatMap fun k =>
    [.launcher (.spawn (.app (some (consoleManifest 2)))),
      .launcher (.destroy (Process.encodePid ⟨0, by decide⟩ (BitVec.ofNat 16 (k + 1))))]

/-- After three of them the next one goes through. -/
theorem spawn_capacity_fourth : (spawn lowArena (run (sysStep lowArena) (launcherSpawnReset lowArena
        (run (sysStep lowArena) (boot capTableReset) [])) (spawnsAndDestroys 3))
      (.app (some (consoleManifest 2)))).2 = .ok :=
  (spawn_capacity lowArena capTableReset [] (spawnsAndDestroys 3) (by decide)
    (.app (some (consoleManifest 2))) (consoleManifest 2) rfl (by decide) (by decide +kernel)
    (fun m hm => by
      obtain rfl := Option.some.inj hm
      decide +kernel)).mpr (by decide +kernel)

/-- The launcher after eight of them. -/
def usedUp : State :=
  run (sysStep lowArena) (launcherSpawnReset lowArena (boot capTableReset)) (spawnsAndDestroys 8)

/-- Nothing is live, process and handle tables are empty, and the next spawn finds no window. -/
theorem spawn_capacity_used_up : liveSpawns usedUp = 0 ∧ (∀ i, (usedUp.procs i).live = false)
      ∧ (∀ i, (usedUp.handles i).live = false) ∧ appVariant.accepts (consoleManifest 2) = true
      ∧ (spawn lowArena usedUp (.app (some (consoleManifest 2)))).2 = .errAspace := by
  decide +kernel

end Launcher
