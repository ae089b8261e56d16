import SecureOS.GenTablesModel
import SecureOS.IpcStepProofs
import SecureOS.Lib.GenCycleProofs

/-! # Stale port handles and pids

Both tables keep the generation of a slot while its object lives and bump it when the object
ends, so a handle or pid names what it was made for, until the generations of its slot have run
through all their values. -/

namespace GenTables

open GenHandle Ipc MachineRun Process Function CapHandle

/-- The invariant of a table, by its flag, objects and generations. -/
def TableOk : Bool → (Fin 16 → Bool) → (Fin 16 → BitVec 16) → Prop
  | true, _, gen => ∀ i, gen i ≠ 0
  | false, live, gen => ∀ i, live i = false ∧ gen i = 0

/-- The port slots that hold a port. -/
def portLive (t : Tables) (i : Fin 16) : Bool := (t.ports i).live

/-- The process slots that hold a process. -/
def procLive (t : Tables) (i : Fin 16) : Bool := (t.procs i).live

/-- The invariant of both tables. -/
structure TablesOk (t : Tables) : Prop where
  ports : TableOk t.portsInitialized (portLive t) (portGen t)
  procs : TableOk t.procsInitialized (procLive t) (procGen t)

theorem tablesOk_powerOn (handles : Table) : TablesOk (powerOn handles) :=
  ⟨fun _ => ⟨rfl, rfl⟩, fun _ => ⟨rfl, rfl⟩⟩

variable {live : Fin 16 → Bool} {gen : Fin 16 → BitVec 16} {initialized : Bool}
  {i : Fin 16} {t : Tables}

/-- A slot with an object is in an initialised table. -/
theorem initialized_of_live (h : TableOk initialized live gen) (hl : live i) : initialized := by
  cases initialized with
  | true => rfl
  | false => exact (h i).1.symm.trans hl

theorem gen_of_live (h : TableOk initialized live gen) (hl : live i) : gen i ≠ 0 := by
  obtain rfl := initialized_of_live h hl
  exact h i

/-- Before its initialisation a table names nothing. -/
theorem resolve_blank (h : TableOk false live gen) (hd : BitVec 32) :
    GenHandle.resolve live gen hd = none := by
  cases hr : GenHandle.resolve live gen hd with
  | none => rfl
  | some i =>
    have hl := ((resolve_eq_some_iff live gen hd i).mp hr).2
    exact absurd (initialized_of_live h hl) Bool.false_ne_true

/-- One step of a table: the invariant after it, and what happens to each slot. -/
structure TableStep (initialized' : Bool) (live live' : Fin 16 → Bool)
    (gen gen' : Fin 16 → BitVec 16) : Prop where
  ok : TableOk initialized' live' gen'
  evolves : ∀ i, Evolves (live i) (live' i) (gen i) (gen' i)

theorem tableStep_refl (h : TableOk initialized live gen) :
    TableStep initialized live live gen gen :=
  ⟨h, fun i => evolves_refl (live i) (gen i)⟩

/-- An initialisation and then a step that loses no object. -/
theorem tableStep_trans (h : TableStep true live live' gen gen')
    (hi : ∀ i, gen'' i = gen' i ∧ (live' i → live'' i)) : TableStep true live live'' gen gen'' := by
  refine ⟨fun i => ?_, fun i => ?_⟩
  · rw [(hi i).1]
    exact h.ok i
  · rw [(hi i).1]
    exact (h.evolves i).imp_left (fun ⟨hsame, hkeep⟩ => ⟨hsame, fun hl => (hi i).2 (hkeep hl)⟩)

section Rows

variable {R : Type} (live : R → Bool) (gen : R → BitVec 16)

/-- A row put over another of its generation, with an object in it, loses nothing. -/
theorem keep_update (t : Fin 16 → R) (hgen : gen r = gen (t j)) (hlive : live r)
    (i : Fin 16) : gen (update t j r i) = gen (t i) ∧ (live (t i) → live (update t j r i)) := by
  rw [update_apply]
  split_ifs with hij
  · rw [hij]
    exact ⟨hgen, fun _ => hlive⟩
  · exact ⟨rfl, id⟩

/-- A row put over that of an object which ends. -/
theorem tableStep_endRow {t : Fin 16 → R}
    (h : TableOk initialized (fun i => live (t i)) (fun i => gen (t i))) {r : R}
    (hl : live (t j)) (hr : gen r = bump (gen (t j))) :
    TableStep initialized (fun i => live (t i)) (fun i => live (update t j r i))
      (fun i => gen (t i)) (fun i => gen (update t j r i)) := by
  obtain rfl := initialized_of_live h hl
  refine ⟨fun i => ?_, fun i => ?_⟩
  · rw [update_apply]
    split_ifs
    · rw [hr]
      exact bump_ne_zero _
    · exact h i
  · rw [update_apply]
    split_ifs with hij
    · rw [hij]
      exact Or.inr hr
    · exact evolves_refl _ _

end Rows

/-! ## Ports -/

/-- What a call leaves of the ports. -/
def PortStep (t t' : Tables) : Prop :=
  TableStep t'.portsInitialized (portLive t) (portLive t') (portGen t) (portGen t')

theorem portStep_same (h : TablesOk t)
    (hi : t'.portsInitialized = t.portsInitialized) (hp : t'.ports = t.ports) : PortStep t t' := by
  have hl : portLive t' = portLive t := congrArg (fun (p : Ports) i => (p i).live) hp
  have hg : portGen t' = portGen t := congrArg (fun (p : Ports) i => (p i).generation) hp
  rw [PortStep, hi, hl, hg]
  exact tableStep_refl h.ports

theorem portSlot_reset (s : PortSlot) :
    s.reset.generation ≠ 0 ∧ Evolves s.live s.reset.live s.generation s.reset.generation := by
  rw [PortSlot.reset]
  cases hbusy : s.live || s.slotOccupied with
  | true => exact ⟨bump_ne_zero _, Or.inr rfl⟩
  | false =>
    obtain ⟨hdead, -⟩ := Bool.or_eq_false_iff.mp hbusy
    by_cases hz : s.generation = 0
    · simp only [hz]
      exact ⟨by decide, Or.inr (by decide)⟩
    · simp only [hz, hdead]
      exact ⟨hz, Or.inl ⟨rfl, nofun⟩⟩

theorem portStep_reset (t : Tables) : PortStep t (portTableReset t) :=
  ⟨fun i => (portSlot_reset (t.ports i)).1, fun i => (portSlot_reset (t.ports i)).2⟩

theorem portStep_init (h : TablesOk t) : PortStep t (portTableInit t) := by
  rw [portTableInit]
  cases hon : t.portsInitialized with
  | true => exact portStep_reset t
  | false =>
    have hblank := h.ports
    rw [hon] at hblank
    refine ⟨fun i => ?_, fun i => Or.inr ?_⟩
    · show (1 : BitVec 16) ≠ 0
      decide
    · rw [(hblank i).2]
      show (1 : BitVec 16) = _
      decide

/-- The table a port is created in. -/
def readyPorts (t : Tables) : Tables := if !t.portsInitialized then portTableInit t else t

theorem portStep_ready (h : TablesOk t) :
    PortStep t (readyPorts t) ∧ (readyPorts t).portsInitialized := by
  rw [readyPorts]
  cases hon : t.portsInitialized with
  | true => exact ⟨tableStep_refl h.ports, hon⟩
  | false =>
    refine ⟨portStep_init h, ?_⟩
    rw [portTableInit, hon]
    rfl

/-- Creating a port keeps every generation and every port. -/
theorem ports_create (p : Ports) (owner sendCap recvCap : Nat) (i : Fin 16) :
    ((ipcPortCreate p owner sendCap recvCap).1 i).generation = (p i).generation
      ∧ ((p i).live → ((ipcPortCreate p owner sendCap recvCap).1 i).live) := by
  obtain ⟨he, -⟩ | ⟨_, _, he, -⟩ := ipcPortCreate_cases p owner sendCap recvCap
  · rw [he]
    exact ⟨rfl, id⟩
  · rw [he]
    refine keep_update PortSlot.live PortSlot.generation p ?_ ?_ i <;> rfl

theorem portStep_create (h : TablesOk t) (owner sendCap recvCap : Nat) (outPort : Bool) :
    PortStep t (portCreate t owner sendCap recvCap outPort).1 := by
  obtain ⟨hready, hon⟩ := portStep_ready h
  cases outPort with
  | false => exact hready
  | true =>
    rw [PortStep, hon] at hready
    have hinit : (portCreate t owner sendCap recvCap true).1.portsInitialized := hon
    rw [PortStep, hinit]
    exact tableStep_trans hready
      (fun i => ports_create (readyPorts t).ports owner sendCap recvCap i)

theorem portStep_destroy (h : TablesOk t) (hd : BitVec 32) : PortStep t (portDestroy t hd).1 := by
  rw [portDestroy, ipcPortDestroy]
  cases hr : Ipc.resolve t.ports hd with
  | none => exact tableStep_refl h.ports
  | some j =>
    have hl : portLive t j := ((resolve_eq_some_iff (portLive t) (portGen t) hd j).mp hr).2
    refine tableStep_endRow PortSlot.live PortSlot.generation h.ports hl ?_
    rfl

/-! ## Processes -/

/-- What a call leaves of the processes. -/
def ProcStep (t t' : Tables) : Prop :=
  TableStep t'.procsInitialized (procLive t) (procLive t') (procGen t) (procGen t')

theorem procStep_same (h : TablesOk t)
    (hi : t'.procsInitialized = t.procsInitialized) (hp : t'.procs = t.procs) : ProcStep t t' := by
  have hl : procLive t' = procLive t := congrArg (fun (p : Procs) i => (p i).live) hp
  have hg : procGen t' = procGen t := congrArg (fun (p : Procs) i => (p i).generation) hp
  rw [ProcStep, hi, hl, hg]
  exact tableStep_refl h.procs

theorem procStep_reset (h : TablesOk t) : ProcStep t (procTableReset t) := by
  -- the first reset turns the zeros into ones, which is a bump too
  have hgen : ∀ i, procGen (procTableReset t) i = bump (procGen t i) := by
    intro i
    rw [procTableReset]
    cases hon : t.procsInitialized with
    | true => rfl
    | false =>
      have hblank := h.procs
      rw [hon] at hblank
      show (if procGen t i = 0 then 1 else procGen t i) = _
      rw [if_pos (hblank i).2, (hblank i).2]
      decide
  refine ⟨fun i => ?_, fun i => Or.inr (hgen i)⟩
  rw [hgen i]
  exact bump_ne_zero _

/-- The table a process is created in. -/
def readyProcs (t : Tables) : Tables := if !t.procsInitialized then procTableReset t else t

theorem procStep_ready (h : TablesOk t) :
    ProcStep t (readyProcs t) ∧ (readyProcs t).procsInitialized := by
  rw [readyProcs]
  cases hon : t.procsInitialized with
  | true => exact ⟨tableStep_refl h.procs, hon⟩
  | false => exact ⟨procStep_reset h, rfl⟩

/-- Creating a process keeps every generation and every process. -/
theorem procs_create (p : Procs) (subject : Nat) (aspace : Option AddressSpace.Window)
    (i : Fin 16) : ((processCreate p subject aspace).1 i).generation = (p i).generation
      ∧ ((p i).live → ((processCreate p subject aspace).1 i).live) := by
  obtain he | ⟨_, _, he⟩ := processCreate_cases p subject aspace
  · rw [he]
    exact ⟨rfl, id⟩
  · rw [he]
    refine keep_update Slot.live Slot.generation p ?_ ?_ i <;> rfl

theorem procStep_create (h : TablesOk t) (subject : Nat) (aspace : Option AddressSpace.Window)
    (outPid : Bool) : ProcStep t (procCreate t subject aspace outPid).1 := by
  obtain ⟨hready, hon⟩ := procStep_ready h
  cases outPid with
  | false => exact hready
  | true =>
    rw [ProcStep, hon] at hready
    have hinit : (procCreate t subject aspace true).1.procsInitialized := hon
    rw [ProcStep, hinit]
    exact tableStep_trans hready (fun i => procs_create (readyProcs t).procs subject aspace i)

theorem procStep_destroy (h : TablesOk t) (pid : BitVec 32) : ProcStep t (procDestroy t pid).1 := by
  rw [procDestroy, processDestroy]
  cases hr : resolve t.procs pid with
  | none => exact tableStep_refl h.procs
  | some =>
    refine tableStep_endRow Slot.live Slot.generation h.procs (live_of_resolve hr) ?_
    rfl

/-! ## Every call -/

/-- **PORTS** under every call. -/
theorem portStep (h : TablesOk t) (op : Op) : PortStep t (step t op) := by
  cases op with
  | portInit => exact portStep_init h
  | portReset => exact portStep_reset t
  | portCreate owner sendCap recvCap outPort =>
    exact portStep_create h owner sendCap recvCap outPort
  | portDestroy hd => exact portStep_destroy h hd
  | procCreate _ _ outPid =>
    refine portStep_same h ?_ ?_ <;> cases hon : t.procsInitialized <;> cases outPid <;>
      simp [step, procCreate, procTableReset, hon]
  | _ => exact tableStep_refl h.ports

/-- **PROCESSES** under every call. -/
theorem procStep (h : TablesOk t) (op : Op) : ProcStep t (step t op) := by
  cases op with
  | portInit =>
    refine procStep_same h ?_ ?_ <;> cases hon : t.portsInitialized <;>
      simp [step, portTableInit, portTableReset, hon]
  | portCreate _ _ _ outPort =>
    refine procStep_same h ?_ ?_ <;> cases hon : t.portsInitialized <;> cases outPort <;>
      simp [step, portCreate, portTableInit, hon]
  | procReset => exact procStep_reset h
  | procCreate subject aspace outPid => exact procStep_create h subject aspace outPid
  | procDestroy pid => exact procStep_destroy h pid
  | _ => exact tableStep_refl h.procs

theorem tablesOk_step (t : Tables) (op : Op) (h : TablesOk t) : TablesOk (step t op) :=
  ⟨(portStep h op).ok, (procStep h op).ok⟩

/-- The tables after a list of calls from power-on. -/
def reached (handles : Table) (ops : List Op) : Tables := run step (powerOn handles) ops

theorem tablesOk_reached (handles : Table) (ops : List Op) : TablesOk (reached handles ops) :=
  run_inv_all tablesOk_step ops (powerOn handles) (tablesOk_powerOn handles)

/-! ## New and stale handles -/

/-- A new handle, in the table as it was before the initialisation. -/
theorem fresh_handle (live' : Fin 16 → Bool) (gen' : Fin 16 → BitVec 16)
    (h : TableOk initialized live gen) (hready : TableOk true live' gen')
    (hsame : initialized → live' = live ∧ gen' = gen) (hdead : live' j = false) :
    encode (BitVec.ofNat 16 j.val) (gen' j) ≠ 0
      ∧ GenHandle.resolve live gen (encode (BitVec.ofNat 16 j.val) (gen' j)) = none := by
  have hnew := dead_handle (by decide) live' gen' hdead (hready j)
  refine ⟨hnew.1, ?_⟩
  cases initialized with
  | true =>
    obtain ⟨rfl, rfl⟩ := hsame rfl
    exact hnew.2
  | false => exact resolve_blank h _

/-- **A NEW PORT HANDLE** is not the invalid one, and no port had it. -/
theorem port_fresh (h : TablesOk t)
    (hc : (portCreate t owner sendCap recvCap outPort).2.2 = some (i, hd)) :
    hd ≠ 0 ∧ Ipc.resolve t.ports hd = none := by
  obtain ⟨hready, hon⟩ := portStep_ready h
  cases outPort with
  | false => exact absurd hc (by simp [portCreate])
  | true =>
    have hc' : (ipcPortCreate (readyPorts t).ports owner sendCap recvCap).2.2 = some (i, hd) := hc
    obtain ⟨-, hno⟩ | ⟨_, hdead, -, hsome⟩ :=
      ipcPortCreate_cases (readyPorts t).ports owner sendCap recvCap
    · rw [hno] at hc'
      cases hc'
    · rw [hsome] at hc'
      obtain ⟨rfl, rfl⟩ := Prod.mk.inj (Option.some.inj hc')
      rw [PortStep, hon] at hready
      have hsame : t.portsInitialized → readyPorts t = t := fun hi => by
        rw [readyPorts, hi]
        rfl
      exact fresh_handle (portLive (readyPorts t)) (portGen (readyPorts t)) h.ports hready.ok
        (fun hi => by rw [hsame hi]; exact ⟨rfl, rfl⟩) hdead

/-- **A NEW PID** is not the invalid one, and no process had it. -/
theorem proc_fresh (h : TablesOk t) (hc : (procCreate t subject aspace outPid).2.1 = .ok) :
    (procCreate t subject aspace outPid).2.2 ≠ 0
      ∧ resolve t.procs (procCreate t subject aspace outPid).2.2 = none := by
  obtain ⟨hready, hon⟩ := procStep_ready h
  cases outPid with
  | false => exact absurd hc (by simp [procCreate])
  | true =>
    have hc' : (processCreate (readyProcs t).procs subject aspace).2.1 = .ok := hc
    obtain ⟨-, hno, -⟩ | ⟨j, hdead, -, hpid, -⟩ :=
      processCreate_outcome (readyProcs t).procs subject aspace
    · exact absurd hc' hno
    · have he : (procCreate t subject aspace true).2.2
          = encode (BitVec.ofNat 16 j.val) (procGen (readyProcs t) j) := hpid
      rw [ProcStep, hon] at hready
      have hsame : t.procsInitialized → readyProcs t = t := fun hi => by
        rw [readyProcs, hi]
        rfl
      rw [he]
      exact fresh_handle _ _ h.procs hready.ok (fun hi => by rw [hsame hi]; exact ⟨rfl, rfl⟩) hdead

/-- The bumps of a port slot while calls run. -/
def portBumps (i : Fin 16) (t : Tables) (ops : List Op) : Nat :=
  hits step (bumps step portGen i) t ops

/-- The bumps of a process slot while calls run. -/
def procBumps (i : Fin 16) (t : Tables) (ops : List Op) : Nat :=
  hits step (bumps step procGen i) t ops

/-- **STALE HANDLES AND PIDS**: after any calls, a new handle or pid is valid and names nothing
    live, and one whose object has ended names an object again only after 65534 further bumps of its
    slot. -/
theorem stale_handles_and_pids (handles : Table) (ops : List Op) :
    let t := reached handles ops
    (∀ owner sendCap recvCap outPort i hd,
        (portCreate t owner sendCap recvCap outPort).2.2 = some (i, hd) →
        hd ≠ 0 ∧ Ipc.resolve t.ports hd = none)
      ∧ (∀ subject aspace outPid, (procCreate t subject aspace outPid).2.1 = .ok →
        (procCreate t subject aspace outPid).2.2 ≠ 0
          ∧ resolve t.procs (procCreate t subject aspace outPid).2.2 = none)
      ∧ (∀ op ops' hd i j, Ipc.resolve t.ports hd = some i →
        Ipc.resolve (step t op).ports hd = none →
        Ipc.resolve (run step (step t op) ops').ports hd = some j →
        65534 ≤ portBumps i (step t op) ops')
      ∧ (∀ op ops' pid i j, resolve t.procs pid = some i →
        resolve (step t op).procs pid = none →
        resolve (run step (step t op) ops').procs pid = some j →
        65534 ≤ procBumps i (step t op) ops') := by
  intro t
  have hok : TablesOk t := tablesOk_reached handles ops
  refine ⟨?_, ?_, ?_, ?_⟩
  · intro _ _ _ _ _ _ hc
    exact port_fresh hok hc
  · intro _ _ _ hc
    exact proc_fresh hok hc
  · intro _ _ _ _ _ hlive hstale hagain
    have hround : (portBumps _ _ _ + 1) % 65535 = 0 :=
      stale_round tablesOk_step (fun _ op ht => (portStep ht op).evolves)
        (fun _ _ ht hl => gen_of_live ht.ports hl) hok hlive hstale hagain
    omega
  · intro _ _ _ _ _ hlive hstale hagain
    have hround : (procBumps _ _ _ + 1) % 65535 = 0 :=
      stale_round tablesOk_step (fun _ op ht => (procStep ht op).evolves)
        (fun _ _ ht hl => gen_of_live ht.procs hl) hok hlive hstale hagain
    omega

/-! ## A round that brings a handle back -/

/-- A port of subject 1. -/
def makePort : Op := .portCreate 1 Capability.capIpcSend Capability.capIpcRecv true

/-- A port is made and the table reset, a number of times, and one more port is made. -/
def portTurns (k : Nat) : List Op := (List.replicate k [makePort, .portReset]).flatten ++ [makePort]

/-- A table without ports, the first slot at a generation. -/
def portsAt (g : BitVec 16) : Tables :=
  { powerOn capHandleTableReset with
    portsInitialized := true
    ports := fun i => ⟨false, false, if i = 0 then g else 1, 0, 0, 0, zeroMsg⟩ }

/-- The port of the first slot at a generation. -/
def portAt (g : BitVec 16) : Tables :=
  { portsAt g with
    ports := update (portsAt g).ports 0
      (((portsAt g).ports 0).create 1 Capability.capIpcSend Capability.capIpcRecv) }

theorem step_makePort (g : BitVec 16) : step (portsAt g) makePort = portAt g := rfl

theorem step_portReset (g : BitVec 16) : step (portAt g) .portReset = portsAt (bump g) := by
  have hports : ipcPortTableReset (portAt g).ports = (portsAt (bump g)).ports := by
    funext i
    by_cases hi : i = 0
    · subst hi
      rfl
    · show (update (portsAt g).ports 0 _ i).reset = _
      simp [portsAt, PortSlot.reset, hi]
  show ({ portAt g with portsInitialized := true, ports := _ } : Tables) = _
  rw [hports]
  rfl

theorem portTurns_run (g : BitVec 16) (k : Nat) :
    run step (portsAt g) (portTurns k) = portAt (bump^[k] g)
      ∧ portBumps 0 (portsAt g) (portTurns k) = k := by
  have hkeep : ∀ g, bumps step portGen 0 (portsAt g) makePort = false :=
    fun _ => bne_self_eq_false ..
  induction k generalizing g with
  | zero =>
    refine ⟨rfl, ?_⟩
    show hits _ _ _ [makePort] = 0
    rw [hits_cons, hkeep]
    rfl
  | succ k ih =>
    obtain ⟨hrun, hbumps⟩ := ih (bump g)
    have hops : portTurns (k + 1) = makePort :: .portReset :: portTurns k := by rfl
    have hbump : bumps step portGen 0 (portAt g) .portReset := by
      rw [bumps, bne_iff_ne]
      exact bump_ne_self g
    rw [portBumps] at hbumps ⊢
    rw [hops, run_cons, step_makePort, run_cons, hits_cons, hkeep, step_makePort, hits_cons, hbump,
      step_portReset, hrun, hbumps]
    exact ⟨rfl, by simp [Nat.add_comm]⟩

/-- The first port's handle, after a reset and 65534 bumps: the reset's is the last of the round. -/
theorem port_handle_returns :
    Ipc.resolve (reached capHandleTableReset [makePort]).ports 0x00010000 = some 0
      ∧ Ipc.resolve (step (reached capHandleTableReset [makePort]) .portReset).ports
        0x00010000 = none
      ∧ Ipc.resolve (run step (step (reached capHandleTableReset [makePort]) .portReset)
        (portTurns 65534)).ports 0x00010000 = some 0
      ∧ portBumps 0 (step (reached capHandleTableReset [makePort]) .portReset)
        (portTurns 65534) = 65534 := by
  have hfirst : reached capHandleTableReset [makePort] = portAt 1 := by
    have hports : Ipc.ipcPortTableInit = (portsAt 1).ports := by
      funext i
      show _ = (⟨false, false, if i = 0 then 1 else 1, 0, 0, 0, zeroMsg⟩ : PortSlot)
      rw [ite_self]
      rfl
    rw [portAt, ← hports]
    rfl
  have hround : bump^[65534] (bump 1) = 1 := by
    refine BitVec.eq_of_toNat_eq ?_
    rw [iterate_bump_toNat (bump_ne_zero 1)]
    rfl
  obtain ⟨hrun, hbumps⟩ := portTurns_run (bump 1) 65534
  rw [hfirst, step_portReset, hrun, hbumps, hround]
  exact ⟨by decide, by decide, by decide, rfl⟩

end GenTables
