import SecureOS.ProcSchedProofs
import SecureOS.SchedRunModel

/-! # The ready queue along a run

A process that has exited may be destroyed, and its entry then stays behind with a pid that
names nothing.  The scheduler does not see such an entry except when it looks for a free one.

* `QueueOk` — what the scheduler's invariant says of the queue. -/

namespace SchedRun

open MachineRun Process ProcSched

variable {t : Tasks} {m : Machine} {e : Fin 16}

/-! ## The invariant of the scheduler, operation by operation -/

theorem schedOk_yield (h : SchedOk t) : SchedOk (procYield t).1 := by
  cases hc : t.current with
  | none =>
    rw [procYield, hc]
    exact h
  | some =>
    obtain ⟨_, -, -, hl⟩ := yield_lands h hc
    exact hl.ok

theorem schedOk_exit (h : SchedOk t) (code : BitVec 32) : SchedOk (procExit t code).1 := by
  cases hc : t.current with
  | none =>
    rw [procExit, hc]
    exact h
  | some =>
    obtain ⟨_, -, -, hl⟩ := exit_lands h hc code
    exact hl.ok

theorem schedOk_block (h : SchedOk t) (port : Option Token) :
    SchedOk (procSchedBlockCurrentOnPort t port).1 := by
  cases port with
  | none => exact h
  | some i =>
    cases hc : t.current with
    | none =>
      rw [procSchedBlockCurrentOnPort, hc]
      exact h
    | some =>
      obtain ⟨_, -, -, -, hl⟩ := block_lands h hc i
      exact hl.ok

theorem schedOk_wake (h : SchedOk t) (port : Option Token) :
    SchedOk (procSchedWakeOneOnPort t port).1 := by
  cases port with
  | none => exact h
  | some i =>
    obtain ⟨-, he⟩ | ⟨_, _, -, -, -, -, hl⟩ := wake_lands h i
    · rw [he]
      exact h
    · exact hl.ok

/-- The end of a turn, where the machine goes on. -/
theorem schedOk_endTurn (h : SchedOk m.tasks) (ctxOk : Bool) :
    SchedOk (endTurn m (dispatch m.tasks ctxOk).1 (dispatch m.tasks ctxOk).2).tasks := by
  obtain ⟨-, _, hd⟩ | ⟨_, _, _, -, -, -, hd⟩ := dispatch_cases h ctxOk
  · rw [hd]
    exact schedOk_dispatching h false
  · generalize hx : dispatch m.tasks ctxOk = x at hd
    cases hd with
    | violated _ _ _ _ hforce =>
      cases hhook : m.panicHook with
      | true =>
        rw [endTurn, hhook]
        exact hforce.ok
      | false =>
        rw [endTurn, hhook]
        exact h
    | runs _ _ hl | fails _ hl => exact hl.ok

/-! ## What is registered -/

/-- The same entries are in use for the same pids. -/
def SameEntries (t t' : Tasks) : Prop :=
  ∀ e, (t'.entries e).inUse = (t.entries e).inUse ∧ (t'.entries e).pid = (t.entries e).pid

theorem sameEntries_of_eq (h : t'.entries = t.entries) : SameEntries t t' := by
  intro _
  rw [h]
  exact ⟨rfl, rfl⟩

section

variable (t : Tasks)

theorem sameEntries_yield : SameEntries t (procYield t).1 := by
  rw [procYield]
  cases t.current <;> exact sameEntries_of_eq rfl

theorem sameEntries_exit (code : BitVec 32) : SameEntries t (procExit t code).1 := by
  rw [procExit]
  cases t.current <;> exact sameEntries_of_eq rfl

theorem sameEntries_block (port : Option Token) :
    SameEntries t (procSchedBlockCurrentOnPort t port).1 := by
  rw [procSchedBlockCurrentOnPort]
  split
  · exact sameEntries_of_eq rfl
  · cases t.current <;> exact sameEntries_of_eq rfl

theorem sameEntries_wake (port : Option Token) :
    SameEntries t (procSchedWakeOneOnPort t port).1 := by
  cases port with
  | none => exact sameEntries_of_eq rfl
  | some port =>
    rw [procSchedWakeOneOnPort]
    cases Fin.find? (t.waitsOn port) <;> exact sameEntries_of_eq rfl

theorem sameEntries_switchTo (i : Fin 16) (ctxOk : Bool) :
    SameEntries t (switchTo t i ctxOk).1 := by
  rw [switchTo]
  split_ifs
  · exact sameEntries_of_eq rfl
  all_goals exact fun e => ⟨(entries_started t i e).1, (entries_started t i e).2.1⟩

theorem sameEntries_dispatch (ctxOk : Bool) : SameEntries t (dispatch t ctxOk).1 := by
  fun_cases dispatch t ctxOk with
  | case5 i ready => exact sameEntries_switchTo { t with ready := ready } i ctxOk
  | _ => exact sameEntries_of_eq rfl

end

theorem sameEntries_endTurn (m : Machine) (ctxOk : Bool) :
    let m' := endTurn m (dispatch m.tasks ctxOk).1 (dispatch m.tasks ctxOk).2
    SameEntries m.tasks m'.tasks ∧ m'.registered = m.registered := by
  have hd := sameEntries_dispatch m.tasks ctxOk
  cases (dispatch m.tasks ctxOk).2 with
  | violated =>
    rw [endTurn]
    cases m.panicHook with
    | true => exact ⟨hd, rfl⟩
    | false => exact ⟨sameEntries_of_eq rfl, rfl⟩
  | _ => exact ⟨hd, rfl⟩

theorem step_halted (h : m.halted) (op : Op) : step m op = m := if_pos h

theorem step_running (h : m.halted = false) (op : Op) : step m op = exec m op :=
  if_neg (by rw [h]; exact Bool.false_ne_true)

theorem exec_turn (m : Machine) (ctxOk : Bool) : exec m (.turn ctxOk) = m ∨ exec m (.turn ctxOk)
      = endTurn m (dispatch m.tasks ctxOk).1 (dispatch m.tasks ctxOk).2 := by
  by_cases hturn : (m.tasks.dispatching && m.tasks.current.isNone) = true
  · exact Or.inr (if_pos hturn)
  · exact Or.inl (if_neg hturn)

/-- **ENTRIES** are taken by registering and by nothing else. -/
theorem entries_step (m : Machine) (op : Op) :
    (SameEntries m.tasks (step m op).tasks ∧ (step m op).registered = m.registered)
      ∨ ∃ pid entry mallocOk, op = .register pid entry mallocOk ∧ step m op = exec m op := by
  cases hh : m.halted with
  | true =>
    rw [step_halted hh]
    exact Or.inl ⟨sameEntries_of_eq rfl, rfl⟩
  | false =>
    rw [step_running hh]
    cases op with
    | setPanicHook | create | destroy => exact Or.inl ⟨sameEntries_of_eq rfl, rfl⟩
    | register pid entry mallocOk => exact Or.inr ⟨pid, entry, mallocOk, rfl, rfl⟩
    | yield => exact Or.inl ⟨sameEntries_yield m.tasks, rfl⟩
    | exit code => exact Or.inl ⟨sameEntries_exit m.tasks code, rfl⟩
    | block port => exact Or.inl ⟨sameEntries_block m.tasks port, rfl⟩
    | wake port => exact Or.inl ⟨sameEntries_wake m.tasks port, rfl⟩
    | run =>
      refine Or.inl ⟨?_, rfl⟩
      show SameEntries m.tasks (procSchedRun m.tasks).1
      rw [procSchedRun]
      cases m.tasks.dispatching <;> exact sameEntries_of_eq rfl
    | turn ctxOk =>
      left
      obtain he | he := exec_turn m ctxOk
      · rw [he]
        exact ⟨sameEntries_of_eq rfl, rfl⟩
      · rw [he]
        exact sameEntries_endTurn m ctxOk

/-! ## The invariant of the machine -/

/-- What `spares` asks of a destroyed pid. -/
theorem spares_destroy (h : spares m (.destroy pid))
    (hat : m.tasks.At e s) (hp : (m.tasks.entries e).pid = pid) : s.state = .exited := by
  have hall := List.all_eq_true.mp h e (List.mem_finRange e)
  simpa [hat.1, hp, hat.2] using hall

/-- Destroying a process that has exited, or one that is not registered. -/
theorem schedOk_destroy (h : SchedOk t) (handles : CapHandle.Table)
    (hspare : ∀ e s, t.At e s → (t.entries e).pid = pid → s.state = .exited) :
    SchedOk { t with procs := (processDestroy t.procs handles pid).1 } := by
  refine schedOk_procs h (fun e s hat hst => ⟨hat.1, ?_⟩) (fun pid' s hs => Or.inl ?_)
  · show processLookup _ _ = _
    rw [lookup_destroy, if_neg fun hp => hst (hspare e s hat hp)]
    exact hat.2
  · rw [lookup_destroy] at hs
    split_ifs at hs
    exact hs

theorem schedOk_register (h : SchedOk t) (pid : BitVec 32) (entry : Option Nat) (mallocOk : Bool) :
    SchedOk (procSchedRegister t pid entry mallocOk).1 := by
  obtain ⟨he, -⟩ | ⟨_, hr⟩ := register_lands h pid entry mallocOk
  · rw [he]
    exact h
  · exact registers_ok h hr

/-- **THE STEP**: every call keeps the invariant. -/
theorem schedOk_step (m : Machine) (op : Op) (h : SchedOk m.tasks) (hs : spares m op) :
    SchedOk (step m op).tasks := by
  cases hh : m.halted with
  | true =>
    rw [step_halted hh]
    exact h
  | false =>
    rw [step_running hh]
    cases op with
    | setPanicHook => exact h
    | create subject aspace => exact create_ok h subject aspace
    | destroy => exact schedOk_destroy h m.handles (fun e s hat hp => spares_destroy hs hat hp)
    | register pid entry mallocOk => exact schedOk_register h pid entry mallocOk
    | yield => exact schedOk_yield h
    | exit code => exact schedOk_exit h code
    | block port => exact schedOk_block h port
    | wake port => exact schedOk_wake h port
    | run =>
      show SchedOk (procSchedRun m.tasks).1
      rw [procSchedRun]
      cases m.tasks.dispatching with
      | true => exact h
      | false => exact schedOk_dispatching h true
    | turn ctxOk =>
      obtain he | he := exec_turn m ctxOk
      · rw [he]
        exact h
      · rw [he]
        exact schedOk_endTurn h ctxOk

/-! ## The queue -/

/-- A push finds room and adds one entry at the end of the ring that was not there. -/
def Pushes (t t' : Tasks) : Prop :=
  t.ready.count < 16 ∧ ∃ e, e ∉ t.ready.toList ∧ t'.ready.toList = t.ready.toList ++ [e]

/-- The queue: the ring holds exactly the READY entries, each once and at most sixteen, not the one
    that runs; an entry has a token exactly when it is BLOCKED; what pushes finds room. -/
structure QueueOk (t : Tasks) : Prop where
  once : t.ready.toList.Nodup
  bounded : t.ready.count ≤ 16
  ready : ∀ e, e ∈ t.ready.toList ↔ ∃ s, t.At e s ∧ s.state = .ready
  current : ∀ e, t.current = some e → e ∉ t.ready.toList
  blocked : ∀ e s, t.At e s → (s.blockedOnPort.isSome = true ↔ s.state = .blocked)
  register : ∀ pid entry mallocOk, (procSchedRegister t pid entry mallocOk).2 = .ok →
    Pushes t (procSchedRegister t pid entry mallocOk).1
  yield : (procYield t).2 = .ok → Pushes t (procYield t).1
  wake : ∀ port, (procSchedWakeOneOnPort t port).2 = .ok →
    Pushes t (procSchedWakeOneOnPort t port).1

theorem yield_pushes (h : SchedOk t) (hok : (procYield t).2 = .ok) : Pushes t (procYield t).1 := by
  cases hc : t.current with
  | none =>
    rw [procYield, hc] at hok
    exact absurd hok (by simp)
  | some c =>
    obtain ⟨_, hat, hs, hl⟩ := yield_lands h hc
    have hnot := not_mem_ready h hat (by simp [hs])
    exact ⟨count_lt h hnot, c, hnot, hl.ring⟩

theorem wake_pushes (h : SchedOk t) (port : Option Token)
    (hok : (procSchedWakeOneOnPort t port).2 = .ok) :
    Pushes t (procSchedWakeOneOnPort t port).1 := by
  cases port with
  | none => exact absurd hok (by simp [procSchedWakeOneOnPort])
  | some i =>
    obtain ⟨hf, -⟩ | ⟨e, _, -, hat, hs, -, hl⟩ := wake_lands h i
    · rw [procSchedWakeOneOnPort, hf] at hok
      exact absurd hok (by simp [wakeEntry])
    · have hnot := not_mem_ready h hat (by simp [hs])
      exact ⟨count_lt h hnot, e, hnot, hl.ring⟩

theorem queueOk (h : SchedOk t) : QueueOk t where
  once := h.nodup
  bounded := count_le h
  ready := h.ready
  current e hc := by
    obtain ⟨-, s, hat, hs, -⟩ := h.running e hc
    exact not_mem_ready h hat (by simp [hs])
  blocked e s hat := (h.blocked e s hat).symm
  register pid entry mallocOk hok := by
    obtain ⟨-, hno⟩ | ⟨e, hr⟩ := register_lands h pid entry mallocOk
    · exact absurd hok hno
    · have hnot := free_not_mem h hr.free
      exact ⟨count_lt h hnot, e, hnot, hr.ring⟩
  yield := yield_pushes h
  wake := wake_pushes h

/-- **THE READY QUEUE** along every run in which no registered process is destroyed before it has
    exited. -/
theorem ready_queue_invariant (p : Procs) (handles : CapHandle.Table) (ops : List Op)
    (hp : ∀ pid s, processLookup p pid = some s → s.blockedOnPort = none)
    (hops : Along step (fun m op => spares m op = true) (boot p handles) ops) :
    QueueOk (run step (boot p handles) ops).tasks :=
  queueOk (run_inv schedOk_step ops (boot p handles) (schedOk_reset hp) hops)

/-- A process from its creation to its destruction after it has exited. -/
def lifetime (pid : BitVec 32) : List Op :=
  [.create 1 (some ⟨0x1000, 0x1000, 0x2000, 0⟩), .register pid (some 1) true, .run, .turn true,
    .exit 0, .turn true, .destroy pid]

/-- Three processes, two of them registered. -/
def waiting : List Op :=
  [.create 1 (some ⟨0x1000, 0x1000, 0x2000, 0⟩), .create 2 (some ⟨0x3000, 0x1000, 0x4000, 0⟩),
    .create 3 (some ⟨0x5000, 0x1000, 0x6000, 0⟩), .register 0x00010000 (some 1) true,
    .register 0x00010001 (some 1) true]

/-- The third is registered while the first runs; the second runs next, exits and is destroyed. -/
def arrival : List Op :=
  [.run, .turn true, .register 0x00010002 (some 1) true, .yield, .turn true, .exit 0,
    .destroy 0x00010001]

theorem lookup_init (pid : BitVec 32) (s : Slot) (h : processLookup processTableInit pid = some s) :
    s.blockedOnPort = none := by
  rw [processLookup, Option.map_eq_some_iff] at h
  obtain ⟨_, _, rfl⟩ := h
  rfl

theorem ready_queue_of_arrival :
    (run step (boot processTableInit CapHandle.capHandleTableReset)
        (waiting ++ arrival)).tasks.ready.toList = [2, 0]
      ∧ QueueOk (run step (boot processTableInit CapHandle.capHandleTableReset)
        (waiting ++ arrival)).tasks :=
  ⟨by decide +kernel, ready_queue_invariant processTableInit CapHandle.capHandleTableReset
    (waiting ++ arrival) lookup_init (by decide +kernel)⟩

/-! ## The order of service -/

/-- The entry a turn deals with: the one it runs, the one the panic hook ends, or the one it popped
    and could not start.  A turn that aborts the kernel deals with none. -/
def taken (m : Machine) : Op → List (Fin 16)
  | .turn ok =>
    if m.tasks.dispatching && m.tasks.current.isNone && !m.halted then
      match (dispatch m.tasks ok).2 with
      | .runs i => [i]
      | .violated i _ => if m.panicHook then [i] else []
      | .skipped => (m.tasks.ready.pop.map Prod.fst).toList
      | .drained _ => []
    else []
  | _ => []

theorem ring_turn (h : SchedOk m.tasks) (hh : m.halted = false) (ok : Bool) :
    m.tasks.ready.toList <+: taken m (.turn ok) ++ (exec m (.turn ok)).tasks.ready.toList := by
  rw [taken, exec, hh]
  by_cases hturn : m.tasks.dispatching && m.tasks.current.isNone
  · rw [if_pos hturn, hturn]
    obtain ⟨hl, -⟩ | ⟨_, _, _, hl, -, -, hd⟩ := dispatch_cases h ok
    · rw [hl]
      exact List.nil_prefix
    · generalize dispatch m.tasks ok = x at hd ⊢
      cases hd with
      | violated _ _ _ _ hforce => cases hhook : m.panicHook <;> simp [endTurn, *, hforce.ring]
      | runs _ _ hlands => simp [endTurn, hl, hlands.ring]
      | fails _ hlands => simp [endTurn, hl, hlands.ring, RingQueue.pop_fst]
  · rw [if_neg hturn, if_neg (by simp [hturn])]
    exact List.prefix_rfl

/-- **STEP**: entries come onto the ring at its end, and only turns take them, from its front. -/
theorem ring_step (op : Op) (h : SchedOk m.tasks) :
    m.tasks.ready.toList <+: taken m op ++ (step m op).tasks.ready.toList := by
  cases hh : m.halted with
  | true =>
    have hnone : taken m op = [] := by cases op <;> simp [taken, hh]
    rw [hnone, step_halted hh]
    exact List.prefix_rfl
  | false =>
    rw [step_running hh]
    cases op with
    | turn ok => exact ring_turn h hh ok
    | register pid entry mallocOk =>
      obtain ⟨he, -⟩ | ⟨_, hr⟩ := register_lands h pid entry mallocOk
      · simp [taken, exec, he]
      · simp [taken, exec, hr.ring]
    | yield =>
      cases hc : m.tasks.current with
      | none => simp [taken, exec, procYield, hc]
      | some =>
        obtain ⟨_, -, -, hl⟩ := yield_lands h hc
        simp [taken, exec, hl.ring]
    | exit code =>
      cases hc : m.tasks.current with
      | none => simp [taken, exec, procExit, hc]
      | some =>
        obtain ⟨_, -, -, hl⟩ := exit_lands h hc code
        simp [taken, exec, hl.ring]
    | block port =>
      cases port with
      | none => exact List.prefix_rfl
      | some i =>
        cases hc : m.tasks.current with
        | none => simp [taken, exec, procSchedBlockCurrentOnPort, hc]
        | some =>
          obtain ⟨_, -, -, -, hl⟩ := block_lands h hc i
          simp [taken, exec, hl.ring]
    | wake port =>
      cases port with
      | none => exact List.prefix_rfl
      | some i =>
        obtain ⟨-, he⟩ | ⟨_, _, -, -, -, -, hl⟩ := wake_lands h i
        · simp [taken, exec, he]
        · simp [taken, exec, hl.ring]
    | run =>
      simp only [taken, exec, procSchedRun]
      cases m.tasks.dispatching <;> exact List.prefix_rfl
    | _ => exact List.prefix_rfl

/-- **FIRST READY, FIRST SERVED**: from every state of a run on, the loop takes the entries that are
    on the ring there in their order, and none that comes later before them. -/
theorem served_in_order (p : Procs) (handles : CapHandle.Table) (ops more : List Op)
    (hp : ∀ pid s, processLookup p pid = some s → s.blockedOnPort = none)
    (hops : Along step (fun m op => spares m op = true) (boot p handles) (ops ++ more)) :
    (run step (boot p handles) ops).tasks.ready.toList
      <+: emitted step taken (run step (boot p handles) ops) more
        ++ (run step (boot p handles) (ops ++ more)).tasks.ready.toList := by
  obtain ⟨hbefore, hafter⟩ := (along_append step _ ops more _).mp hops
  have h := run_inv schedOk_step ops _ (schedOk_reset hp) hbefore
  rw [run_append]
  clear hops hbefore
  generalize run step (boot p handles) ops = m at h hafter ⊢
  induction more generalizing m with
  | nil => exact List.prefix_rfl
  | cons op more ih =>
    refine (ring_step op h).trans ?_
    rw [emitted_cons, List.append_assoc, List.prefix_append_right_inj]
    exact ih _ (schedOk_step m op h hafter.1) hafter.2

theorem served_in_order_arrival :
    [0, 1] <+: emitted step taken (run step (boot processTableInit CapHandle.capHandleTableReset)
        waiting) arrival ∧ (run step (boot processTableInit CapHandle.capHandleTableReset)
        (waiting ++ arrival.take 3)).tasks.ready.toList = [1, 2] := by
  have h := served_in_order processTableInit CapHandle.capHandleTableReset waiting arrival
    lookup_init (by decide +kernel)
  have hring : (run step (boot processTableInit CapHandle.capHandleTableReset)
      waiting).tasks.ready.toList = [0, 1] := by decide
  rw [hring] at h
  exact ⟨List.prefix_of_prefix_length_le h (List.prefix_append ..) (by decide), by decide⟩

end SchedRun
