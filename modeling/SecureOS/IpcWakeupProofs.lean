import SecureOS.IpcStepProofs
import SecureOS.Lib.RendezvousProofs

/-! # Wakeups

Senders and receivers of a port wait on one token, and a transfer wakes the first waiter in
table order.  As long as that waiter is of the side the transfer made the port ready for,
whenever one of that side waits, no wakeup is lost: once nothing is ready to run, no process
waits for what a port already offers. -/

namespace Ipc

open Capability CapTable Process ProcSched MachineRun Rendezvous Function List Option

/-! ## Ports as cells -/

/-- The side of a port a pending call is on. -/
def Pending.side : Pending → Side
  | .stage .. => .put
  | .consume .. => .take

/-- The process of the entry is BLOCKED inside a call on a side of the port. -/
def Kernel.blockedIn (k : Kernel) (side : Side) (i e : Fin 16) : Bool :=
  (k.tasks.entries e).inUse && (k.tasks.slotOf e).any (fun s => s.state == .blocked)
    && (k.calls e).any (fun p => p.side == side && resolve k.ports p.port == some i)

/-- Where the process of an entry is with respect to a port. -/
def Kernel.phase (k : Kernel) (i e : Fin 16) : Phase :=
  match k.calls e with
  | none => .away
  | some p =>
    if resolve k.ports p.port = some i then
      if (k.tasks.slotOf e).any (fun s => s.state == .blocked) then .asleep p.side
      else .trying p.side
    else .away

/-- A port as a cell. -/
def Kernel.cell (k : Kernel) (i : Fin 16) : Cell (Fin 16) := ⟨(k.ports i).slotOccupied, k.phase i⟩

/-- The entry's process waits inside the call: on the ring, to try again, or BLOCKED on its port. -/
structure Waits (k : Kernel) (e : Fin 16) (p : Pending) : Prop where
  alone : p.ofCall = false
  started : (k.tasks.entries e).started = true
  here : ∃ i s, resolve k.ports p.port = some i ∧ k.tasks.At e s
    ∧ AddressSpace.aspaceInvariantOk s.aspace = true
    ∧ ((s.state = .ready ∧ e ∈ k.tasks.ready.toList)
      ∨ (s.state = .blocked ∧ s.blockedOnPort = some i))

/-- Who is inside a call waits in it, and nobody else is BLOCKED. -/
structure Waiting (k : Kernel) : Prop where
  calls : ∀ e p, k.calls e = some p → Waits k e p
  stuck : ∀ e s, k.tasks.At e s → s.state = .blocked → ∃ p, k.calls e = some p

theorem blockedIn_iff (k : Kernel) (side : Side) (i e : Fin 16) : k.blockedIn side i e
      ↔ ∃ s p, k.tasks.At e s ∧ s.state = .blocked ∧ k.calls e = some p ∧ p.side = side
        ∧ resolve k.ports p.port = some i := by
  simp only [Kernel.blockedIn, Bool.and_eq_true, Option.any_eq_true, beq_iff_eq, Tasks.At]
  grind

variable {k : Kernel} {e : Fin 16}

theorem phase_of_none (h : k.calls e = none) (i : Fin 16) : k.phase i e = .away := by
  rw [Kernel.phase, h]

variable {i j : Fin 16} {p : Pending}

/-- A call on another port is away from this one. -/
theorem phase_of_elsewhere (hp : k.calls e = some p) (hj : resolve k.ports p.port = some j)
    (hne : i ≠ j) : k.phase i e = .away := by
  simp [Kernel.phase, hp, hj, hne.symm]

variable {s : Slot}

section

variable (hp : k.calls e = some p) (hi : resolve k.ports p.port = some i) (hat : k.tasks.At e s)
include hp hi hat

theorem phase_of_blocked (hs : s.state = .blocked) : k.phase i e = .asleep p.side := by
  simp [Kernel.phase, hp, hi, hat.2, hs]

theorem phase_of_awake (hs : s.state ≠ .blocked) : k.phase i e = .trying p.side := by
  simp [Kernel.phase, hp, hi, hat.2, hs]

end

variable {side : Side}

/-- Asleep at a port is BLOCKED inside a call on it, among the waiters of its token. -/
theorem asleep_iff (hw : Waiting k) : k.phase i e = .asleep side ↔ k.blockedIn side i e := by
  rw [blockedIn_iff]
  constructor
  · intro h
    cases hp : k.calls e with
    | none => exact nomatch (phase_of_none hp i).symm.trans h
    | some p =>
      obtain ⟨j, s, hj, hat, -⟩ := (hw.calls e p hp).here
      by_cases hij : i = j
      · subst hij
        by_cases hs : s.state = .blocked
        · obtain rfl := Phase.asleep.inj ((phase_of_blocked hp hj hat hs).symm.trans h)
          exact ⟨s, p, hat, hs, rfl, rfl, hj⟩
        · exact nomatch (phase_of_awake hp hj hat hs).symm.trans h
      · exact nomatch (phase_of_elsewhere hp hj hij).symm.trans h
  · rintro ⟨_, _, hat, hs, hp, rfl, hi⟩
    exact phase_of_blocked hp hi hat hs

theorem waitsOn_of_blockedIn (hw : Waiting k) (h : k.blockedIn side i e) : k.tasks.waitsOn i e := by
  obtain ⟨s, p, hat, hs, hp, -, hi⟩ := (blockedIn_iff k side i e).mp h
  obtain ⟨_, _, hj, hat', -, hcase⟩ := (hw.calls e p hp).here
  obtain rfl := at_unique hat hat'
  obtain rfl := some.inj (hi.symm.trans hj)
  rcases hcase with ⟨hr, -⟩ | ⟨-, hb⟩
  · exact nomatch hr.symm.trans hs
  · exact (waitsOn_iff k.tasks i e).mpr ⟨s, hat, hs, hb⟩

/-- Who tries is on the ring. -/
theorem mem_ready_of_trying (hw : Waiting k) (h : k.phase i e = .trying side) :
    e ∈ k.tasks.ready.toList := by
  cases hp : k.calls e with
  | none => exact nomatch (phase_of_none hp i).symm.trans h
  | some p =>
    obtain ⟨j, _, hj, hat, -, ⟨-, hmem⟩ | ⟨hs, -⟩⟩ := (hw.calls e p hp).here
    · exact hmem
    · by_cases hij : i = j
      · subst hij
        exact nomatch (phase_of_blocked hp hj hat hs).symm.trans h
      · exact nomatch (phase_of_elsewhere hp hj hij).symm.trans h

/-! ## What an action leaves alone -/

/-- Handles keep what they name. -/
def KeepsPorts (k k' : Kernel) : Prop :=
  ∀ h i, resolve k.ports h = some i → resolve k'.ports h = some i

variable {k' : Kernel}

theorem waits_kept (h : Waits k e p) (hr : KeepsPorts k k')
    (hst : (k.tasks.entries e).started → (k'.tasks.entries e).started)
    (hat : ∀ s, k.tasks.At e s → k'.tasks.At e s)
    (hring : e ∈ k.tasks.ready.toList → e ∈ k'.tasks.ready.toList) : Waits k' e p := by
  obtain ⟨i, s, hi, hs, ha, hcase⟩ := h.here
  refine ⟨h.alone, hst h.started, i, s, hr _ _ hi, hat s hs, ha, ?_⟩
  exact hcase.imp_left (And.imp_right hring)

theorem phase_kept (hw : Waiting k) (hr : KeepsPorts k k') (hc : k'.calls e = k.calls e)
    (hat : ∀ s, k.tasks.At e s → k'.tasks.At e s) (i : Fin 16) : k'.phase i e = k.phase i e := by
  rw [Kernel.phase, Kernel.phase, hc]
  cases hp : k.calls e with
  | none => rfl
  | some p =>
    obtain ⟨_, s, hj, hs, -⟩ := (hw.calls e p hp).here
    dsimp only
    rw [hj, hr _ _ hj, hs.2, (hat s hs).2]

/-- One entry moves: the others wait as they did. -/
theorem waiting_moves (hw : Waiting k) (hm : Moves k.tasks k'.tasks e s) (hr : KeepsPorts k k')
    (hcalls : ∀ e', e' ≠ e → k'.calls e' = k.calls e')
    (hring : ∀ e', e' ≠ e → e' ∈ k.tasks.ready.toList → e' ∈ k'.tasks.ready.toList)
    (hself : ∀ p, k'.calls e = some p → Waits k' e p)
    (hstuck : s.state = .blocked → ∃ p, k'.calls e = some p) : Waiting k' := by
  refine ⟨fun e' p hp => ?_, fun e' s' hat hs => ?_⟩
  · by_cases hee : e' = e
    · subst hee
      exact hself p hp
    · rw [hcalls e' hee] at hp
      exact waits_kept (hw.calls e' p hp) hr (hm.started e')
        (fun s' hs' => (hm.other e' hee s').mpr hs') (hring e' hee)
  · by_cases hee : e' = e
    · subst hee
      rw [at_unique hat hm.self] at hs
      exact hstuck hs
    · rw [hcalls e' hee]
      exact hw.stuck e' s' ((hm.other e' hee s').mp hat) hs

theorem cell_kept (hfull : (k'.ports i).slotOccupied = (k.ports i).slotOccupied)
    (hphase : ∀ e, k'.phase i e = k.phase i e) : k'.cell i = k.cell i := by
  rw [Kernel.cell, Kernel.cell, hfull, funext hphase]

variable {c : Fin 16}

theorem calls_running (hs : SchedOk k.tasks) (hw : Waiting k) (hc : k.tasks.current = some c) :
    k.calls c = none := by
  cases hp : k.calls c with
  | none => rfl
  | some p =>
    obtain ⟨_, _, -, hat, -, hcase⟩ := (hw.calls c p hp).here
    obtain ⟨-, _, hat', hrun, -⟩ := hs.running c hc
    rw [at_unique hat' hat] at hrun
    rcases hcase with ⟨hr, -⟩ | ⟨hb, -⟩
    · exact nomatch hr.symm.trans hrun
    · exact nomatch hb.symm.trans hrun

/-! ## Calls past their checks -/

/-- Every port is covered on both sides. -/
def Live (k : Kernel) : Prop := ∀ i, NoLost (k.cell i)

/-- Every port is covered, but for one side of one port: that of a process that is about to try. -/
def LiveBut (k : Kernel) (j : Fin 16) (side : Side) : Prop :=
  (∀ i, i ≠ j → NoLost (k.cell i)) ∧ Covered (k.cell j) side.flip

/-- The wake of a transfer goes to the other side whenever a process is BLOCKED there. -/
def Kernel.wakeMatches (k : Kernel) (j : Fin 16) (side : Side) : Prop :=
  side.ready (k.ports j).slotOccupied → (∃ e, k.blockedIn side.flip j e) →
    ∃ e ∈ Fin.find? (k.tasks.waitsOn j), k.blockedIn side.flip j e

theorem barred_eq (p : Pending) (s : PortSlot) : p.barred s = !p.side.ready s.slotOccupied := by
  cases p with
  | stage => exact (Bool.not_not _).symm
  | consume => rfl

/-- **BLOCKING** on a port that is not ready. -/
theorem live_block (hs : SchedOk k.tasks) (hw : Waiting k) (hc : k.tasks.current = some c)
    (hj : resolve k.ports p.port = some j) (hb : p.barred (k.ports j))
    (halone : p.ofCall = false) (hlive : LiveBut k j p.side) :
    let k' := k.afterBlock c j p
    SchedOk k'.tasks ∧ Waiting k' ∧ Live k' := by
  intro k'
  obtain ⟨s, _, -, ha, hl⟩ := block_lands hs hc j
  have hidle := calls_running hs hw hc
  have hself : k'.calls c = some p := update_self ..
  have hother : ∀ e, e ≠ c → k'.calls e = k.calls e := fun e he => update_of_ne he ..
  have hports : KeepsPorts k k' := fun _ _ h => h
  have hphase : ∀ i e, e ≠ c → k'.phase i e = k.phase i e := fun i e he =>
    phase_kept hw hports (hother e he) (fun s' hs' => (hl.moves.other e he s').mpr hs') i
  refine ⟨hl.ok, ?_, fun i => ?_⟩
  · refine waiting_moves hw hl.moves hports hother (fun e _ he => ?_) (fun q hq => ?_)
      (fun _ => ⟨p, hself⟩)
    · show e ∈ k'.tasks.ready.toList
      exact hl.ring.symm ▸ he
    · obtain rfl := some.inj (hself.symm.trans hq)
      exact ⟨halone, hl.moves.started c (hs.running c hc).1, j, _, hj, hl.moves.self, ha,
        Or.inr ⟨rfl, rfl⟩⟩
  · by_cases hij : i = j
    · subst hij
      rw [barred_eq] at hb
      refine noLost_sleep (c := k.cell i) (q := c) (s := p.side)
        (by simpa [Kernel.cell] using hb) rfl ?_ (fun e he => hphase i e he) ?_ hlive.2
      · exact phase_of_blocked hself hj hl.moves.self rfl
      · intro h
        exact nomatch (phase_of_none hidle i).symm.trans h
    · have hcell : k'.cell i = k.cell i := by
        refine cell_kept rfl (fun e => ?_)
        by_cases hec : e = c
        · subst hec
          rw [phase_of_elsewhere hself hj hij, phase_of_none hidle i]
        · exact hphase i e hec
      rw [hcell]
      exact hlive.1 i hij

/-- **A TRANSFER** whose wake matches. -/
theorem live_transfer (side : Side) (hs : SchedOk k.tasks) (hw : Waiting k)
    (hready : side.ready (k.ports j).slotOccupied)
    (hports : k'.ports = update k.ports j x) (hl : x.live = (k.ports j).live)
    (hg : x.generation = (k.ports j).generation)
    (hfull : x.slotOccupied = !(k.ports j).slotOccupied)
    (htasks : k'.tasks = (procSchedWakeOneOnPort k.tasks (some j)).1) (hcalls : k'.calls = k.calls)
    (hmatch : k.wakeMatches j side) (hlive : ∀ i, i ≠ j → NoLost (k.cell i)) :
    SchedOk k'.tasks ∧ Waiting k' ∧ Live k' := by
  have hkeep : KeepsPorts k k' := by
    intro _ i hi
    rw [hports, resolve_update hl hg]
    exact hi
  have hcell : ∀ i, i ≠ j → (k'.ports i).slotOccupied = (k.ports i).slotOccupied := by
    intro i hij
    rw [hports, update_of_ne hij]
  have hcellj : (k'.ports j).slotOccupied = !(k.ports j).slotOccupied := by
    rw [hports, update_self, hfull]
  obtain ⟨hf, he⟩ | ⟨e, s, hf, hat, hsb, hbo, hl⟩ := wake_lands hs j
  · -- nobody waits for the port, so nobody sleeps at it
    rw [← htasks] at he
    have hphase : ∀ i e, k'.phase i e = k.phase i e := fun i e =>
      phase_kept hw hkeep (by rw [hcalls]) (fun s hs => by rw [he]; exact hs) i
    refine ⟨he ▸ hs, ⟨fun e p hp => ?_, fun e s hs hb => ?_⟩, fun i => ?_⟩
    · rw [hcalls] at hp
      exact waits_kept (hw.calls e p hp) hkeep (he ▸ id) (he ▸ fun _ => id) (he ▸ id)
    · rw [hcalls]
      exact hw.stuck e s (he ▸ hs) hb
    · by_cases hij : i = j
      · subst hij
        refine noLost_transfer (c := k.cell i) hready hcellj
          (fun e hslept => (hphase i e).symm.trans hslept) (fun ⟨e, hslept⟩ => ?_)
        have hb := waitsOn_of_blockedIn hw ((asleep_iff hw).mp hslept)
        rw [Fin.find?_eq_none_iff.mp hf e] at hb
        exact nomatch hb
      · rw [cell_kept (hcell i hij) (hphase i)]
        exact hlive i hij
  · -- the first waiter of the port is woken
    rw [← htasks] at hl
    obtain ⟨p, hp⟩ := hw.stuck e s hat hsb
    have hj : resolve k.ports p.port = some j := by
      obtain ⟨i, s', hi, hat', -, hcase⟩ := (hw.calls e p hp).here
      obtain rfl := at_unique hat hat'
      rcases hcase with ⟨hr, -⟩ | ⟨-, hb⟩
      · exact nomatch hr.symm.trans hsb
      · rw [hi, ← hb, hbo]
    have hp' : k'.calls e = some p := by rw [hcalls, hp]
    have hphase : ∀ i e', e' ≠ e → k'.phase i e' = k.phase i e' := fun i e' hne =>
      phase_kept hw hkeep (by rw [hcalls]) (fun s' hs' => (hl.moves.other e' hne s').mpr hs') i
    have hwoken : k'.phase j e = .trying p.side :=
      phase_of_awake hp' (hkeep _ _ hj) hl.moves.self (by simp)
    refine ⟨hl.ok, ?_, fun i => ?_⟩
    · refine waiting_moves hw hl.moves hkeep (fun e' _ => by rw [hcalls])
        (fun e' _ hmem => ?_) (fun q hq => ?_) (fun hno => (nomatch hno))
      · rw [hl.ring]
        exact mem_append_left _ hmem
      · obtain rfl := some.inj (hp'.symm.trans hq)
        have hold := hw.calls e p hp
        obtain ⟨i, _, hi, hat', ha, -⟩ := hold.here
        obtain rfl := at_unique hat hat'
        exact ⟨hold.alone, hl.moves.started e hold.started, i, _, hkeep _ _ hi, hl.moves.self, ha,
          Or.inl ⟨rfl, hl.ring ▸ mem_append_right _ (mem_singleton_self e)⟩⟩
    · by_cases hij : i = j
      · subst hij
        refine noLost_transfer (c := k.cell i) hready hcellj (fun e' hslept => ?_)
          (fun ⟨e', hslept⟩ => ?_)
        · have hne : e' ≠ e := by
            rintro rfl
            exact nomatch hwoken.symm.trans hslept
          exact (hphase i e' hne).symm.trans hslept
        · obtain ⟨_, hw', hblocked⟩ := hmatch hready ⟨e', (asleep_iff hw).mp hslept⟩
          obtain rfl := some.inj (hf.symm.trans hw')
          obtain ⟨-, _, -, -, hq, hside, -⟩ := (blockedIn_iff k side.flip i e).mp hblocked
          obtain rfl := some.inj (hp.symm.trans hq)
          exact ⟨e, hside ▸ hwoken⟩
      · rw [cell_kept (hcell i hij) (fun e' => ?_)]
        · exact hlive i hij
        · by_cases hne : e' = e
          · subst hne
            rw [phase_of_elsewhere hp' (hkeep _ _ hj) hij, phase_of_elsewhere hp hj hij]
          · exact hphase i e' hne

/-- **A CALL PAST ITS CHECKS** keeps every port covered if its wake matches.  One that fails must
    not have been the one that was about to try. -/
theorem live_does (hd : Does caller k p events k')
    (hs : SchedOk k.tasks) (hw : Waiting k) (halone : p.ofCall = false)
    (hfail : resolve k.ports p.port = none ∨ procSchedIsActive k.tasks = false → Live k)
    (hbut : ∀ j, resolve k.ports p.port = some j → LiveBut k j p.side)
    (hmatch : ∀ j, resolve k.ports p.port = some j → k.wakeMatches j p.side) :
    SchedOk k'.tasks ∧ Waiting k' ∧ Live k' := by
  cases hd with
  | fails _ hwhy => exact ⟨hs, hw, hfail hwhy⟩
  | blocks _ hc _ hi hb => exact live_block hs hw hc hi hb halone (hbut _ hi)
  | @sends _ _ _ _ i hi hfree =>
    exact live_transfer .put hs hw (by simp [Side.ready, hfree]) rfl rfl rfl
      (by rw [hfree]; rfl) rfl rfl (hmatch i hi) (hbut i hi).1
  | sendsRefused | sendsOn => exact absurd halone.symm Bool.false_ne_true
  | @delivers _ _ _ _ i hi hfull
  | @mangles _ _ _ _ i hi hfull =>
    exact live_transfer .take hs hw hfull rfl rfl rfl (by rw [hfull]; rfl) rfl rfl
      (hmatch i hi) (hbut i hi).1

/-! ## Actions -/

/-- Processes come, run and call, ports are made: everything but destruction and `ipc_call`. -/
def Action.inScope : Action → Bool
  | .ipc (.call ..) => false
  | .portDestroy _ => false
  | .processDestroy _ => false
  | _ => true

/-- The port a call is on and the side. -/
def Call.rendezvous : Call → BitVec 32 × Side
  | .send _ target _ => (target, .put)
  | .sendH _ target _ => (target, .put)
  | .recv _ selfPort _ => (selfPort, .take)
  | .recvH _ selfPort _ => (selfPort, .take)
  | .call _ target _ _ _ => (target, .put)

/-- The port and side of the call an action issues or, for the head of the ring, resumes. -/
def Action.rendezvous (k : Kernel) : Action → Option (BitVec 32 × Side)
  | .ipc c => some c.rendezvous
  | .turn _ => k.tasks.ready.toList.head?.bind
      (fun e => (k.calls e).map (fun p => (p.port, p.side)))
  | _ => none

/-- **THE CONDITION**: if the action's call can go through and a process is BLOCKED on the other
    side of its port, then the first waiter of the port in table order is on that side. -/
def WakesMatch (k : Kernel) (a : Action) : Prop :=
  ∀ r ∈ a.rendezvous k, ∀ j ∈ resolve k.ports r.1, k.wakeMatches j r.2

instance (k : Kernel) (j : Fin 16) (side : Side) : Decidable (k.wakeMatches j side) :=
  inferInstanceAs (Decidable (_ → _ → _))

instance (k : Kernel) (a : Action) : Decidable (WakesMatch k a) :=
  inferInstanceAs (Decidable (∀ r ∈ a.rendezvous k, ∀ j ∈ resolve k.ports r.1, k.wakeMatches j r.2))

/-- What every state reached satisfies. -/
structure Settled (k : Kernel) : Prop where
  sched : k.halted = true ∨ SchedOk k.tasks
  waiting : Waiting k
  live : Live k

/-- Nothing happens to ports and calls, nor to the processes inside calls. -/
theorem settled_aside (h : Settled k) (hsched : k'.halted ∨ SchedOk k'.tasks)
    (hports : k'.ports = k.ports) (hcalls : k'.calls = k.calls)
    (hst : ∀ e, (k.tasks.entries e).started → k.calls e ≠ none → (k'.tasks.entries e).started)
    (hat : ∀ e s, k.calls e ≠ none → k.tasks.At e s → k'.tasks.At e s)
    (hring : ∀ e, k.calls e ≠ none → e ∈ k.tasks.ready.toList → e ∈ k'.tasks.ready.toList)
    (hblocked : ∀ e s, k'.tasks.At e s → s.state = .blocked → k.tasks.At e s) : Settled k' := by
  have hw := h.waiting
  have hkeep : KeepsPorts k k' := fun h i hi => by rw [hports]; exact hi
  refine ⟨hsched, ⟨fun e p hp => ?_, fun e s hs hb => ?_⟩, fun i => ?_⟩
  · rw [hcalls] at hp
    have hne : k.calls e ≠ none := by simp [hp]
    exact waits_kept (hw.calls e p hp) hkeep (fun h => hst e h hne) (fun s => hat e s hne)
      (hring e hne)
  · rw [hcalls]
    exact hw.stuck e s (hblocked e s hs hb) hb
  · have hcell : k'.cell i = k.cell i := by
      refine cell_kept (by rw [hports]) (fun e => ?_)
      cases hp : k.calls e with
      | none => rw [phase_of_none hp i, phase_of_none (by rw [hcalls, hp]) i]
      | some => exact phase_kept hw hkeep (by rw [hcalls]) (fun s => hat e s (by simp [hp])) i
    rw [hcell]
    exact h.live i

/-- An entry outside any call moves, to a state other than BLOCKED. -/
theorem settled_moves (h : Settled k) (hsched : SchedOk k'.tasks) (hports : k'.ports = k.ports)
    (hcalls : k'.calls = k.calls) (hm : Moves k.tasks k'.tasks e s) (hnone : k.calls e = none)
    (hs : s.state ≠ .blocked)
    (hring : ∀ e', e' ≠ e → e' ∈ k.tasks.ready.toList → e' ∈ k'.tasks.ready.toList) :
    Settled k' := by
  have hne : ∀ {e'}, k.calls e' ≠ none → e' ≠ e := by
    rintro e' hcall rfl
    exact hcall hnone
  refine settled_aside h (Or.inr hsched) hports hcalls (fun e' h _ => hm.started e' h)
    (fun e' s' hcall h => (hm.other e' (hne hcall) s').mpr h)
    (fun e' hcall => hring e' (hne hcall)) (fun e' s' hat hb => ?_)
  by_cases hee : e' = e
  · subst hee
    exact absurd (at_unique hat hm.self ▸ hb) hs
  · exact (hm.other e' hee s').mp hat

/-- The scheduler's state is the same but for whether its loop runs. -/
theorem settled_same (h : Settled k) (hports : k'.ports = k.ports)
    (hcalls : k'.calls = k.calls) (htasks : k'.tasks = { k.tasks with dispatching := b })
    (hhalted : k'.halted = k.halted) : Settled k' := by
  refine settled_aside h ?_ hports hcalls
    (fun e he _ => by rw [htasks]; exact he) (fun e s _ hs => by rw [htasks]; exact hs)
    (fun e _ he => by rw [htasks]; exact he) (fun e s hs _ => by rw [htasks] at hs; exact hs)
  rw [hhalted, htasks]
  exact h.sched.imp_right (fun hs => schedOk_dispatching hs b)

theorem settled_quiet (hq : Quiet k k') (h : Settled k) : Settled k' := by
  obtain ⟨_, _, rfl⟩ := hq
  exact settled_same h rfl rfl rfl rfl

theorem enters_rendezvous {c : Call} (h : Enters k c p) : c.rendezvous = (p.port, p.side) := by
  cases h with
  | _ => rfl

theorem enters_alone {c : Call} (h : Enters k c p) (hscope : (Action.ipc c).inScope) :
    p.ofCall = false := by
  cases h with
  | call => exact nomatch hscope
  | _ => rfl

/-- **A CALL** of what runs, or from outside. -/
theorem settled_ipc {c : Call} (hsched : SchedOk k.tasks) (h : Settled k)
    (hscope : (Action.ipc c).inScope) (hmatch : WakesMatch k (.ipc c)) :
    Settled (execCall k c).1 := by
  obtain ⟨_, _, hq, hc⟩ | ⟨_, p, hq, hin, hd⟩ := execCall_cases k c
  · rw [hc]
    exact settled_quiet hq h
  · have h' := settled_quiet hq h
    obtain ⟨_, _, rfl⟩ := hq
    obtain ⟨hs, hw, hlive⟩ := live_does hd hsched h'.waiting (enters_alone hin hscope)
      (fun _ => h'.live) (fun j _ => ⟨fun i _ => h'.live i, h'.live j _⟩)
      (fun j hj => hmatch (p.port, p.side) (congrArg some (enters_rendezvous hin)) j hj)
    exact ⟨Or.inr hs, hw, hlive⟩

/-! ## Resuming a call -/

/-- The kernel when an entry runs again, before it tries: its call is taken out. -/
def Kernel.resumed (k : Kernel) (t : Tasks) (e : Fin 16) : Kernel :=
  { k with tasks := t, calls := update k.calls e none }

section Resume

variable {k : Kernel} {t : Tasks} {e : Fin 16}

theorem resumed_keeps : KeepsPorts k (k.resumed t e) := fun _ _ hi => hi

theorem resumed_calls (hne : e' ≠ e) : (k.resumed t e).calls e' = k.calls e' := update_of_ne hne ..

theorem resumed_phase_self (i : Fin 16) : (k.resumed t e).phase i e = .away :=
  phase_of_none (update_self ..) i

section

variable (hw : Waiting k) (hlands : Lands k.tasks t e { s with state := .running } rest (some e))
include hw hlands

/-- The other entries keep their phases. -/
theorem resumed_phase (i : Fin 16) (hne : e' ≠ e) : (k.resumed t e).phase i e' = k.phase i e' :=
  phase_kept hw resumed_keeps (resumed_calls hne)
    (fun s' hs' => (hlands.moves.other e' hne s').mpr hs') i

theorem resumed_waiting (hl : k.tasks.ready.toList = e :: rest) : Waiting (k.resumed t e) := by
  refine waiting_moves hw hlands.moves resumed_keeps (fun e' hne => resumed_calls hne)
    (fun e' hne he' => ?_) (fun q hq => ?_) (fun hno => (nomatch hno))
  · rw [hl] at he'
    show e' ∈ t.ready.toList
    rw [hlands.ring]
    exact mem_of_ne_of_mem hne he'
  · have hnone : (k.resumed t e).calls e = none := update_self ..
    exact nomatch hnone.symm.trans hq

variable (hp : k.calls e = some p) (hj : resolve k.ports p.port = some j)
  (htrying : k.phase j e = .trying p.side)
include hp hj htrying

/-- Only the resumed entry's own side of its own port may have lost its cover. -/
theorem resumed_liveBut (hlive : Live k) : LiveBut (k.resumed t e) j p.side := by
  refine ⟨fun i hij => ?_, fun hready hasleep => ?_⟩
  · have hcell : (k.resumed t e).cell i = k.cell i := by
      refine cell_kept rfl (fun e' => ?_)
      by_cases hne : e' = e
      · subst hne
        rw [phase_of_elsewhere hp hj hij, resumed_phase_self]
      · exact resumed_phase hw hlands i hne
    rw [hcell]
    exact hlive i
  · obtain ⟨e', he'⟩ := hasleep
    have hne : e' ≠ e := by
      rintro rfl
      exact nomatch (resumed_phase_self j).symm.trans he'
    obtain ⟨w, hw'⟩ := hlive j p.side.flip hready
      ⟨e', (resumed_phase hw hlands j hne).symm.trans he'⟩
    -- who covers the other side is not the resumed entry
    have hwe : w ≠ e := by
      rintro rfl
      have hside := Phase.trying.inj (htrying.symm.trans hw')
      cases hps : p.side <;> rw [hps] at hside <;> exact nomatch hside
    exact ⟨w, (resumed_phase hw hlands j hwe).trans hw'⟩

/-- The same entries are blocked: the resumed one was not. -/
theorem resumed_blockedIn (hl : k.tasks.ready.toList = e :: rest) (side : Side) (i e' : Fin 16) :
    (k.resumed t e).blockedIn side i e' = k.blockedIn side i e' := by
  rw [Bool.eq_iff_iff, ← asleep_iff (resumed_waiting hw hlands hl), ← asleep_iff hw]
  by_cases hne : e' = e
  · subst hne
    have hawake : k.phase i e' ≠ .asleep side := by
      by_cases hij : i = j
      · subst hij
        simp [htrying]
      · simp [phase_of_elsewhere hp hj hij]
    simp [resumed_phase_self, hawake]
  · rw [resumed_phase hw hlands i hne]

end

/-- **RESUMING A CALL**: the entry at the head of the ring was about to try. -/
theorem settled_resume (h : Settled k) (hdisp : k.tasks.dispatching)
    (hl : k.tasks.ready.toList = e :: rest) (hat : k.tasks.At e s) (hs : s.state = .ready)
    (hlands : Lands k.tasks t e { s with state := .running } rest (some e))
    (hd : t.dispatching = k.tasks.dispatching) (hp : k.calls e = some p)
    (hmatch : ∀ j, resolve k.ports p.port = some j → k.wakeMatches j p.side)
    (hdoes : Does (some e) (k.resumed t e) p events k') : Settled k' := by
  have hw := h.waiting
  obtain ⟨j, -, hj, -⟩ := (hw.calls e p hp).here
  have htrying : k.phase j e = .trying p.side := phase_of_awake hp hj hat (by simp [hs])
  have hblocked := resumed_blockedIn hw hlands hp hj htrying hl
  have hres : SchedOk k'.tasks ∧ Waiting k' ∧ Live k' := by
    refine live_does hdoes hlands.ok (resumed_waiting hw hlands hl) (hw.calls e p hp).alone
      (fun hwhy => ?_) (fun j' hj' => ?_) (fun j' hj' hready hex => ?_)
    · rcases hwhy with hno | hno
      · exact nomatch hj.symm.trans hno
      · have hact : procSchedIsActive t = true :=
          (isActive_iff t).mpr ⟨hd.trans hdisp, e, hlands.current⟩
        exact nomatch hno.symm.trans hact
    · obtain rfl := some.inj (hj.symm.trans hj')
      exact resumed_liveBut hw hlands hp hj htrying h.live
    · obtain ⟨x, hx⟩ := hex
      rw [hblocked] at hx
      obtain ⟨w, hfind, hb⟩ := hmatch j' hj' hready ⟨x, hx⟩
      refine ⟨w, ?_, (hblocked _ _ _).trans hb⟩
      show w ∈ Fin.find? (t.waitsOn j')
      rw [waitsOn_moves hlands.moves hat (by simp [hs]) (by simp) j']
      exact hfind
  exact ⟨Or.inr hres.1, hres.2.1, hres.2.2⟩

end Resume

/-! ## Turns and runs -/

/-- **A TURN OF THE LOOP**. -/
theorem settled_turn (ctxOk : Bool) (hsched : SchedOk k.tasks) (h : Settled k)
    (hdisp : k.tasks.dispatching) (hmatch : WakesMatch k (.turn ctxOk)) :
    Settled (execTurn k ctxOk).1 := by
  have hw := h.waiting
  obtain ⟨-, _, hd⟩ | ⟨e, rest, _, hl, hat, hs, hd⟩ := dispatch_cases hsched ctxOk
  · rw [execTurn, hd]
    exact settled_same h rfl rfl rfl rfl
  · have hrest : ∀ e', e' ≠ e → e' ∈ k.tasks.ready.toList → e' ∈ rest := by
      intro e' hne he'
      rw [hl] at he'
      exact mem_of_ne_of_mem hne he'
    rw [execTurn]
    generalize hdeq : dispatch k.tasks ctxOk = d at hd
    cases hd with
    | @violated t' _ hbad hp hent hr hforce =>
      -- a process inside a call was dispatched before, so its address space is good
      have hnone : k.calls e = none := by
        cases hc : k.calls e with
        | none => rfl
        | some p =>
          obtain ⟨_, s', -, hat', hgood, -⟩ := (hw.calls e p hc).here
          rw [at_unique hat' hat] at hgood
          cases hbad.symm.trans hgood
      dsimp only
      by_cases hhook : k.panicHook = true
      · rw [if_pos hhook]
        exact settled_moves h hforce.ok rfl rfl hforce.moves hnone (by simp)
          (fun e' hne he' => hforce.ring.symm ▸ hrest e' hne he')
      · rw [if_neg hhook]
        have hat' : ∀ e' s', t'.At e' s' ↔ k.tasks.At e' s' := by
          intro e' s'
          rw [Tasks.At, Tasks.At, Tasks.slotOf, Tasks.slotOf, hp, hent]
        refine settled_aside h (Or.inl rfl) rfl rfl
          (fun e' hst _ => (congrArg (fun es => (es e').started) hent).trans hst)
          (fun e' s' _ hs' => (hat' e' s').mpr hs') (fun e' hcall he' => ?_)
          (fun e' s' hs' _ => (hat' e' s').mp hs')
        rw [hr]
        refine hrest e' ?_ he'
        rintro rfl
        exact hcall hnone
    | @runs _ _ hd hlands =>
      cases hc : k.calls e with
      | none =>
        dsimp only
        rw [hc]
        exact settled_moves h hlands.ok rfl rfl hlands.moves hc (by simp)
          (fun e' hne he' => hlands.ring.symm ▸ hrest e' hne he')
      | some p =>
        dsimp only
        rw [hc]
        refine settled_resume h hdisp hl hat hs hlands hd hc (fun j hj => ?_)
          (perform_does hlands.current.symm p)
        refine hmatch (p.port, p.side) ?_ j hj
        rw [Action.rendezvous, hl, List.head?_cons, bind_some, hc]
        rfl
    | @fails _ hnew hlands =>
      -- a process inside a call was started
      have hnone : k.calls e = none := by
        cases hc : k.calls e with
        | none => rfl
        | some p => cases hnew.symm.trans (hw.calls e p hc).started
      exact settled_moves h hlands.ok rfl rfl hlands.moves hnone (by simp)
        (fun e' hne he' => hlands.ring.symm ▸ hrest e' hne he')

/-- A new port has nobody inside a call on it. -/
theorem settled_portCreate (h : Settled k) (owner sendCap recvCap : Nat) :
    Settled { k with ports := (ipcPortCreate k.ports owner sendCap recvCap).1 } := by
  have hw := h.waiting
  obtain ⟨hp, -⟩ | ⟨i, hdead, hp, -⟩ := ipcPortCreate_cases k.ports owner sendCap recvCap
  · rw [hp]
    exact h
  rw [hp]
  generalize hx : (k.ports i).create owner sendCap recvCap = x
  have hlive : ∀ g j, resolve k.ports g = some j → j ≠ i := by
    rintro g j hj rfl
    exact nomatch hdead.symm.trans ((resolve_eq_some_iff k.ports g j).mp hj).2
  have hkeep : KeepsPorts k { k with ports := update k.ports i x } := by
    intro g j hj
    have hsame : update k.ports i x j = k.ports j := update_of_ne (hlive g j hj) ..
    refine (resolve_eq_some_iff ..).mpr ?_
    dsimp only
    rw [hsame]
    exact (resolve_eq_some_iff ..).mp hj
  have hphase := fun j e => phase_kept hw (e := e) hkeep rfl (fun _ hs => hs) j
  refine ⟨h.sched, ⟨fun e p hp => ?_, hw.stuck⟩, fun j => ?_⟩
  · exact waits_kept (hw.calls e p hp) hkeep id (fun _ => id) id
  · by_cases hji : j = i
    · subst hji
      rintro side - ⟨e, he⟩
      have hb := (asleep_iff hw).mp ((hphase j e).symm.trans he)
      obtain ⟨-, p, -, -, -, -, hj⟩ := (blockedIn_iff k side j e).mp hb
      exact absurd rfl (hlive p.port j hj)
    · have hsame : update k.ports i x j = k.ports j := update_of_ne hji ..
      rw [cell_kept (k := k) (congrArg PortSlot.slotOccupied hsame) (hphase j)]
      exact h.live j

/-- An operation of what runs that ends outside any call. -/
theorem settled_lands (hsched : SchedOk k.tasks) (h : Settled k) (hc : k.tasks.current = some c)
    (hl : Lands k.tasks t c s ring current) (hs : s.state ≠ .blocked)
    (hring : ∀ e ∈ k.tasks.ready.toList, e ∈ ring) : Settled { k with tasks := t } :=
  settled_moves h hl.ok rfl rfl hl.moves (calls_running hsched h.waiting hc) hs
    (fun e _ he => hl.ring.symm ▸ hring e he)

theorem settled_register (hsched : SchedOk k.tasks) (h : Settled k) (pid : BitVec 32)
    (entry : Option Nat) (mallocOk : Bool) :
    Settled { k with tasks := (procSchedRegister k.tasks pid entry mallocOk).1 } := by
  obtain ⟨he, -⟩ | ⟨e, hr⟩ := register_lands hsched pid entry mallocOk
  · rw [he]
    exact h
  · -- the entry was free, so no call belongs to it
    have hne : ∀ {e'}, k.calls e' ≠ none → e' ≠ e := by
      rintro e' hcall rfl
      obtain ⟨p, hp⟩ := ne_none_iff_exists'.mp hcall
      obtain ⟨-, _, -, hat, -⟩ := (h.waiting.calls e' p hp).here
      exact nomatch hr.free.symm.trans hat.1
    refine settled_aside h (Or.inr (registers_ok hsched hr)) rfl rfl
      (fun e' hst hcall => (congrArg Entry.started (hr.entry e' (hne hcall))).trans hst)
      (fun e' s' hcall hs' => (hr.other e' (hne hcall) s').mpr hs')
      (fun e' _ he' => hr.ring.symm ▸ mem_append_left _ he') (fun e' s' hs' hb => ?_)
    by_cases hee : e' = e
    · subst hee
      obtain ⟨_, hat, hready, -⟩ := hr.self
      rw [at_unique hs' hat, hready] at hb
      exact nomatch hb
    · exact (hr.other e' hee s').mp hs'

/-- **ONE ACTION** that meets the condition keeps every port covered. -/
theorem wakeups_step (a : Action) (h : Settled k) (hscope : a.inScope)
    (hmatch : WakesMatch k a) : Settled (step k a) := by
  rw [step]
  cases hen : enabled k a with
  | false =>
    rw [exec_of_disabled hen]
    exact h
  | true =>
    rw [exec_of_enabled hen]
    rw [enabled, Bool.and_eq_true, Bool.not_eq_true', beq_iff_eq] at hen
    obtain ⟨hrun, hturn⟩ := hen
    have hsched : SchedOk k.tasks := h.sched.resolve_left (by simp [hrun])
    cases a with
    | ipc => exact settled_ipc hsched h hscope hmatch
    | turn ctxOk =>
      rw [Kernel.inLoop, Action.isTurn, Bool.and_eq_true] at hturn
      exact settled_turn ctxOk hsched h hturn.1 hmatch
    | portCreate owner sendCap recvCap => exact settled_portCreate h owner sendCap recvCap
    | register pid entry mallocOk => exact settled_register hsched h pid entry mallocOk
    | processCreate subject aspace =>
      exact settled_aside h (Or.inr (create_ok hsched subject aspace)) rfl rfl
        (fun _ h _ => h) (fun _ _ _ hat => ⟨hat.1, lookup_create subject aspace hat.2⟩)
        (fun _ _ h => h)
        (fun _ _ hat hb => ⟨hat.1, (lookup_of_create hat.2).resolve_right (by simp [hb])⟩)
    | run =>
      show Settled { k with tasks := (procSchedRun k.tasks).1 }
      rw [procSchedRun]
      split
      · exact h
      · exact settled_same h rfl rfl rfl rfl
    | yield =>
      show Settled { k with tasks := (procYield k.tasks).1 }
      cases hc : k.tasks.current with
      | none =>
        rw [procYield, hc]
        exact h
      | some =>
        obtain ⟨_, -, -, hl⟩ := yield_lands hsched hc
        exact settled_lands hsched h hc hl (by simp) (fun e he => mem_append_left _ he)
    | exit code =>
      show Settled { k with tasks := (procExit k.tasks code).1 }
      cases hc : k.tasks.current with
      | none =>
        rw [procExit, hc]
        exact h
      | some =>
        obtain ⟨_, -, -, hl⟩ := exit_lands hsched hc code
        exact settled_lands hsched h hc hl (by simp) (fun e he => he)
    | portDestroy | processDestroy => exact absurd hscope Bool.false_ne_true
    | capGrant | capRevoke | capGrantAs | capRevokeAs | handle =>
      exact settled_same h rfl rfl rfl rfl

theorem settled_boot (caps : Caps) (handles : CapHandle.Table) (hook : Bool) :
    Settled (boot caps handles hook) := by
  have hnone : ∀ pid, processLookup processTableInit pid = none := by
    intro pid
    cases hi : Process.resolve processTableInit pid with
    | none => rw [processLookup, hi]; rfl
    | some => exact absurd (Process.live_of_resolve hi) Bool.false_ne_true
  refine ⟨Or.inr (schedOk_reset (fun pid s hs => ?_)),
    ⟨fun _ p hp => absurd hp.symm (some_ne_none p), fun _ _ hat => absurd hat.1 Bool.false_ne_true⟩,
    ?_⟩
  · cases (hnone pid).symm.trans hs
  · rintro _ _ - ⟨_, he⟩
    cases he

/-- **NO LOST WAKEUP**: in every run whose transfers wake the side that waits, when nothing is ready
    no process is BLOCKED in a receive on a full port or in a send on an empty one. -/
theorem ipc_wakeup (caps : Caps) (handles : CapHandle.Table) (hook : Bool) (as : List Action)
    (hrun : Along step (fun k a => a.inScope = true ∧ WakesMatch k a) (boot caps handles hook) as)
    (i : Fin 16) :
    let k := run step (boot caps handles hook) as
    k.tasks.ready.toList = [] →
      ((k.ports i).slotOccupied = true → ∀ e, k.blockedIn .take i e = false)
        ∧ ((k.ports i).slotOccupied = false → ∀ e, k.blockedIn .put i e = false) := by
  intro k hidle
  have h : Settled k :=
    run_inv (fun k a hk hP => wakeups_step a hk hP.1 hP.2) as _ (settled_boot caps handles hook)
      hrun
  have htry : ∀ e s, k.phase i e ≠ .trying s := by
    intro e s hs
    have hmem := mem_ready_of_trying h.waiting hs
    rw [hidle] at hmem
    exact nomatch hmem
  refine ⟨fun hfull e => ?_, fun hfree e => ?_⟩
  · have hno := not_asleep (h.live i) htry (s := .take) hfull e
    rw [← Bool.not_eq_true, ← asleep_iff h.waiting]
    exact hno
  · have hno := not_asleep (h.live i) htry (s := .put) (by simp [Side.ready, Kernel.cell, hfree]) e
    rw [← Bool.not_eq_true, ← asleep_iff h.waiting]
    exact hno

/-- The first sender sends and ends, the second blocks on the full port; the owner receives, which
    wakes it, and blocks in its next receive; at the end it waits in a third. -/
def orderly : List Action :=
  [.turn true, sendBy 1, .exit 0, .turn true, sendBy 2, .turn true, recvByOwner, recvByOwner,
    .turn true, .exit 0, .turn true, recvByOwner, .turn true]

theorem ipc_wakeup_orderly : (run step coldBoot (parties ++ orderly)).blockedIn .take 0 2 = true
      ∧ ∀ e, (run step coldBoot (parties ++ orderly)).blockedIn .put 0 e = false := by
  refine ⟨by decide +kernel, ?_⟩
  exact (ipc_wakeup capResetForTests CapHandle.capHandleTableReset false (parties ++ orderly)
    (by decide +kernel) 0 (by decide +kernel)).2 (by decide +kernel)

/-- The first sender sends twice and blocks, the second blocks too; the owner receives, which wakes
    the first, and blocks in its next receive. -/
def crossed : List Action :=
  [.turn true, sendBy 1, sendBy 1, .turn true, sendBy 2, .turn true, recvByOwner, recvByOwner,
    .turn true, .exit 0, .turn true, .turn true]

/-- The envelope the first sender then stages wakes the second sender, which blocks again: the owner
    stays BLOCKED in its receive with an envelope in its port. -/
theorem wakeup_lost :
    let k := run step coldBoot (parties ++ crossed)
    (∀ a ∈ parties ++ crossed, a.inScope = true)
      ∧ k.tasks.ready.toList = [] ∧ k.tasks.current = none
      ∧ (k.ports 0).live = true ∧ (k.ports 0).slotOccupied = true
      ∧ (k.tasks.slotOf 2).map Slot.subject = some (k.ports 0).owner
      ∧ k.blockedIn .take 0 2 = true
      ∧ Event.runReturned .errDeadlock ∈ emitted step report coldBoot (parties ++ crossed) := by
  intro k
  decide +kernel

end Ipc
