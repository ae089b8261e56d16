import SecureOS.IpcStepProofs

/-! # Delivery of envelopes

A port is a one-place queue: over every interleaving of calls, port creations and destructions,
the envelopes a port has handed out since it was created are a prefix of those it has accepted,
at most one behind. -/

namespace Ipc

open Capability CapTable Process ProcSched MachineRun Function List

/-! ## The envelopes in the kernel -/

/-- The envelope a pending call still has to send meets `P` at the slot its handle is for. -/
def Pending.carries (P : Fin 16 → Msg → Prop) : Pending → Prop
  | .stage _ target env _ => ∀ i g, GenHandle.decode 16 target = some (i, g) → P i env
  | .consume _ _ _ => True

/-- Every envelope in a slot or in a blocked call meets `P`. -/
structure Carries (P : Fin 16 → Msg → Prop) (k : Kernel) : Prop where
  held : ∀ i, (k.ports i).slotOccupied = true → P i (k.ports i).staged
  toSend : ∀ e p, k.calls e = some p → p.carries P

/-- The envelope of a transfer meets `P`; one that was mangled fails the checks on delivery besides.
    -/
def Event.carries (P : Fin 16 → Msg → Prop) : Event → Prop
  | .sent i _ env => P i env
  | .delivered i _ _ env => P i env
  | .mangled i env => P i env ∧ deliveredOk env = false
  | _ => True

variable {P : Fin 16 → Msg → Prop} {e : Event} {p : Pending} {k : Kernel} {i : Fin 16}
  {es : List Event} {as : List Action}

theorem carries_of_plain (h : e.plain) : e.carries P := by
  cases e <;> trivial

theorem Pending.carries_mono (h : ∀ i m, P i m → Q i m) (hp : p.carries P) : p.carries Q := by
  cases p with
  | stage _ _ env => exact fun i g hg => h i env (hp i g hg)
  | consume => trivial

theorem Event.carries_mono (h : ∀ i m, P i m → Q i m) (he : e.carries P) : e.carries Q := by
  cases e with
  | sent i _ env | delivered i _ _ env => exact h i env he
  | mangled i env => exact ⟨h i env he.1, he.2⟩
  | _ => trivial

theorem carries_mono (h : ∀ i m, P i m → Q i m) (hk : Carries P k) : Carries Q k :=
  ⟨fun i hi => h i _ (hk.held i hi), fun e p hp => Pending.carries_mono h (hk.toSend e p hp)⟩

theorem carries_quiet (hq : Quiet k k') (h : Carries P k) : Carries P k' := by
  obtain ⟨hp, hc, -, -⟩ := quiet_sameTables hq
  exact ⟨hp.symm ▸ h.held, hc.symm ▸ h.toSend⟩

/-- A slot is rewritten to one that holds nothing or what meets `P`. -/
theorem carries_slot (h : Carries P k) (hp : k'.ports = update k.ports i s)
    (hc : k'.calls = k.calls) (hs : s.slotOccupied → P i s.staged) : Carries P k' := by
  refine ⟨fun j hj => ?_, hc.symm ▸ h.toSend⟩
  rw [hp] at hj ⊢
  rcases eq_or_ne j i with rfl | hji
  · rw [update_self] at hj ⊢
    exact hs hj
  · rw [update_of_ne hji] at hj ⊢
    exact h.held j hj

/-- A call is left where it blocked, or taken up again. -/
theorem carries_call {e : Fin 16} {p : Option Pending} (h : Carries P k) (hp : k'.ports = k.ports)
    (hc : k'.calls = update k.calls e p) (hs : ∀ q, p = some q → q.carries P) : Carries P k' := by
  refine ⟨hp.symm ▸ h.held, fun e' q hq => ?_⟩
  rw [hc, update_apply] at hq
  split_ifs at hq
  · exact hs q hq
  · exact h.toSend e' q hq

/-- The envelope of a pending send, at the slot its handle names. -/
theorem carries_at (hp : (Pending.stage via target env reply).carries P)
    (hi : resolve ports target = some i) : P i env :=
  hp i _ ((resolve_eq_some_iff ports target i).mp hi).1

/-- **A CALL PAST ITS CHECKS** moves no other envelope than its own and the one it finds in the
    slot. -/
theorem carries_does (hd : Does caller k p events k') (hp : p.carries P) (h : Carries P k) :
    Carries P k' ∧ ∀ e ∈ events, e.carries P := by
  have hret : ∀ r, (Event.returned caller r).carries P := fun r => trivial
  induction hd with
  | fails => exact ⟨h, fun e he => mem_singleton.mp he ▸ hret _⟩
  | blocks =>
    refine ⟨carries_call h rfl rfl (fun q hq => ?_), fun e he => (nomatch he)⟩
    exact Option.some.inj hq ▸ hp
  | sends hi =>
    have hat := carries_at hp hi
    exact ⟨carries_slot h rfl rfl (fun _ => hat),
      forall_mem_cons.mpr ⟨hat, forall_mem_singleton.mpr (hret _)⟩⟩
  | sendsRefused hi _ hq =>
    have hat := carries_at hp hi
    exact ⟨carries_quiet hq (carries_slot h rfl rfl (fun _ => hat)),
      forall_mem_cons.mpr ⟨hat, forall_mem_singleton.mpr (hret _)⟩⟩
  | sendsOn hi _ hq _ _ _ _ ih =>
    have hat := carries_at hp hi
    obtain ⟨hk, he⟩ := ih trivial (carries_quiet hq (carries_slot h rfl rfl (fun _ => hat)))
    exact ⟨hk, forall_mem_cons.mpr ⟨hat, he⟩⟩
  | delivers _ hfull =>
    exact ⟨carries_slot h rfl rfl (fun hno => (nomatch hno)),
      forall_mem_cons.mpr ⟨h.held _ hfull, forall_mem_singleton.mpr (hret _)⟩⟩
  | mangles _ hfull hbad =>
    exact ⟨carries_slot h rfl rfl (fun hno => (nomatch hno)), forall_mem_cons.mpr
      ⟨⟨h.held _ hfull, hbad⟩, forall_mem_singleton.mpr (hret _)⟩⟩

/-- **ONE ACTION** brings in only the envelope of a call that passes its checks. -/
theorem carries_acts (h : Carries P k) (hnew : ∀ c p, a = .ipc c → Enters k c p → p.carries P) :
    Carries P (step k a) ∧ ∀ e ∈ report k a, e.carries P := by
  cases acts k a with
  | idles hp hc he =>
    exact ⟨⟨hp.symm ▸ h.held, hc.symm ▸ h.toSend⟩, fun e hm => carries_of_plain (he e hm)⟩
  | calls ha hq hin hd => exact carries_does hd (hnew _ _ ha hin) (carries_quiet hq h)
  | @resumes _ _ i p _ _ hp hd =>
    refine carries_does hd (h.toSend i p hp) ?_
    exact carries_call (e := i) h rfl rfl (fun q hq => nomatch hq)
  | creates _ _ hp hc he =>
    refine ⟨carries_slot h hp hc (fun hno => (nomatch hno)), ?_⟩
    rw [he]
    exact forall_mem_singleton.mpr trivial
  | destroys _ _ hp hc he =>
    refine ⟨carries_slot h hp hc (fun hno => (nomatch hno)), ?_⟩
    rw [he]
    exact fun e hm => nomatch hm

/-! ## Where envelopes come from -/

/-- The subject a call is made by: named by the caller, or the owner of the handle the call shows.
    -/
def Call.subject (k : Kernel) : Call → Nat
  | .send sender _ _ => sender
  | .sendH h _ _ => CapHandle.capHandleOwner k.handles h
  | .recv receiver _ _ => receiver
  | .recvH h _ _ => CapHandle.capHandleOwner k.handles h
  | .call caller _ _ _ _ => caller

/-- The envelope a call passes. -/
def Call.message : Call → Option MsgPtr
  | .send _ _ msg => msg
  | .sendH _ _ msg => msg
  | .recv _ _ _ => none
  | .recvH _ _ _ => none
  | .call _ _ req _ _ => req

/-- The envelope is one that a call of the run passed on a handle of the slot, with the right to
    send it there, stamped with the call's subject. -/
def Origin (k : Kernel) (as : List Action) (i : Fin 16) (env : Msg) : Prop :=
  ∃ pre c post m via target reply, as = pre ++ .ipc c :: post
    ∧ Enters (run step k pre) c (.stage via target env reply)
    ∧ resolve (run step k pre).ports target = some i ∧ c.message = some m
    ∧ env = { m.msg with senderSubject := c.subject (run step k pre) }

/-- The envelope passes the checks on delivery and a call of the run passed it to the slot. -/
def Passed (k : Kernel) (as : List Action) (i : Fin 16) (env : Msg) : Prop :=
  deliveredOk env ∧ Origin k as i env

theorem passed_snoc (a : Action) (i : Fin 16) (env : Msg) (h : Passed k as i env) :
    Passed k (as ++ [a]) i env := by
  obtain ⟨hok, pre, c, post, m, via, target, reply, rfl, hin⟩ := h
  exact ⟨hok, pre, c, post ++ [a], m, via, target, reply, by simp, hin⟩

theorem enters_passed (hk : k = run step k0 as) (ha : a = .ipc c)
    (h : Enters k c p) : p.carries (Passed k0 (as ++ [a])) := by
  subst hk ha
  -- a handle is for one slot
  have hslot : ∀ {target i j g}, resolve (run step k0 as).ports target = some i →
      GenHandle.decode 16 target = some (j, g) → j = i := by
    intro _ _ _ _ hi hg
    have hdec := ((resolve_eq_some_iff ..).mp hi).1
    rw [hg] at hdec
    exact congrArg Prod.fst (Option.some.inj hdec)
  have hin := h
  cases h with
  | send hok hi | sendH hok hi | call hok hi =>
    intro _ _ hg
    obtain rfl := hslot hi hg
    exact ⟨hok, as, _, [], _, _, _, _, rfl, hin, hi, rfl, rfl⟩
  | _ => trivial

/-- Every envelope in the kernel and in its events was passed by a call of the run. -/
def Traced (k0 : Kernel) (as : List Action) (k : Kernel) (es : List Event) : Prop :=
  Carries (Passed k0 as) k ∧ ∀ e ∈ es, e.carries (Passed k0 as)

theorem traced_step (a : Action) (h : Traced k0 as k es) (hk : k = run step k0 as) :
    Traced k0 (as ++ [a]) (step k a) (es ++ report k a) := by
  obtain ⟨hs, he⟩ := carries_acts (a := a) (carries_mono (passed_snoc a) h.1)
    (fun c p ha hin => enters_passed hk ha hin)
  exact ⟨hs, forall_mem_append.mpr ⟨fun e hm => Event.carries_mono (passed_snoc a) (h.2 e hm), he⟩⟩

theorem traced_boot (caps : Caps) (handles : CapHandle.Table) (hook : Bool) :
    Traced (boot caps handles hook) [] (boot caps handles hook) [] :=
  ⟨⟨fun _ h => (nomatch h), fun _ _ h => (nomatch h)⟩, fun _ h => (nomatch h)⟩

/-! ## The lives of a port -/

/-- What a port has accepted and handed out since it was created. -/
structure PortLife where
  sent : List Msg
  received : List Msg

/-- The lives of the ports of a slot after one more event. -/
def logEvent (i : Fin 16) (log : List PortLife) : Event → List PortLife
  | .created j _ => if j = i then ⟨[], []⟩ :: log else log
  | .sent j _ env =>
    if j = i then log.modifyHead (fun x => { x with sent := x.sent ++ [env] }) else log
  | .delivered j _ _ env =>
    if j = i then log.modifyHead (fun x => { x with received := x.received ++ [env] })
    else log
  | _ => log

/-- The lives of the ports of a slot, newest first; the oldest is the slot before its first port. -/
def portLog (i : Fin 16) (events : List Event) : List PortLife :=
  events.foldl (logEvent i) [⟨[], []⟩]

theorem portLog_append (i : Fin 16) (es fs : List Event) :
    portLog i (es ++ fs) = fs.foldl (logEvent i) (portLog i es) := foldl_append

/-- What the slot of a port holds. -/
def PortSlot.content (s : PortSlot) : List Msg := if s.slotOccupied then [s.staged] else []

/-- The port accepted what it handed out and then what it holds. -/
def InStep (x : PortLife) (s : PortSlot) : Prop := x.sent = x.received ++ s.content

/-- Handed out is a prefix of accepted, at most one behind. -/
def Fifo (x : PortLife) : Prop := x.received <+: x.sent ∧ x.sent.length ≤ x.received.length + 1

theorem fifo_of_inStep (h : InStep x s) : Fifo x := by
  refine ⟨⟨s.content, h.symm⟩, ?_⟩
  rw [h, PortSlot.content]
  split <;> simp

/-- The lives of every slot are first in, first out, and a live slot is in step with its newest. -/
structure Queue (ports : Ports) (events : List Event) : Prop where
  inStep : ∀ i, (ports i).live = true →
    ∃ x log, portLog i events = x :: log ∧ InStep x (ports i)
  fifo : ∀ i, ∀ x ∈ portLog i events, Fifo x

/-- Events without a transfer leave the logs alone. -/
theorem foldl_logEvent_plain (i : Fin 16) :
    ∀ (fs : List Event) (log : List PortLife), (∀ e ∈ fs, e.plain) →
      fs.foldl (logEvent i) log = log := by
  intro fs
  induction fs with
  | nil => intro log _; rfl
  | cons e _ ih =>
    intro log h
    obtain ⟨he, hfs⟩ := forall_mem_cons.mp h
    have hone : logEvent i log e = log := by cases e <;> first | rfl | exact nomatch he
    rw [foldl_cons, hone]
    exact ih log hfs

theorem queue_plain (h : Queue ports es) (hf : ∀ e ∈ fs, e.plain) : Queue ports (es ++ fs) := by
  have hlog : ∀ i, portLog i (es ++ fs) = portLog i es := by
    intro i
    rw [portLog_append, foldl_logEvent_plain i fs _ hf]
  exact ⟨fun i hi => hlog i ▸ h.inStep i hi, fun i => hlog i ▸ h.fifo i⟩

/-- One slot is rewritten and one event logged: its log gets a newest life in step with it. -/
theorem queue_update (h : Queue ports es) (hself : logEvent i (portLog i es) e = x :: log)
    (hother : ∀ j, j ≠ i → ∀ log, logEvent j log e = log) (hstep : InStep x s)
    (hold : ∀ y ∈ log, y ∈ portLog i es) : Queue (update ports i s) (es ++ [e]) := by
  have hlog : portLog i (es ++ [e]) = x :: log := by
    rw [portLog_append, foldl_cons, foldl_nil, hself]
  have hlog' : ∀ j, j ≠ i → portLog j (es ++ [e]) = portLog j es := by
    intro j hj
    rw [portLog_append, foldl_cons, foldl_nil, hother j hj]
  refine ⟨fun j hj => ?_, fun j y hy => ?_⟩
  · rcases eq_or_ne j i with rfl | hji
    · rw [update_self]
      exact ⟨x, log, hlog, hstep⟩
    · rw [update_of_ne hji] at hj ⊢
      exact hlog' j hji ▸ h.inStep j hj
  · rcases eq_or_ne j i with rfl | hji
    · rw [hlog] at hy
      rcases mem_cons.mp hy with rfl | hy
      · exact fifo_of_inStep hstep
      · exact h.fifo j y (hold y hy)
    · exact h.fifo j y (hlog' j hji ▸ hy)

theorem live_of_resolve {p : Ports} {h : BitVec 32} (hi : resolve p h = some i) :
    (p i).live := ((resolve_eq_some_iff p h i).mp hi).2

theorem queue_stage (env : Msg) (via : Via) (h : Queue ports es) (hlive : (ports i).live)
    (hfree : (ports i).slotOccupied = false) :
    Queue (update ports i ((ports i).stage env)) (es ++ [.sent i via env]) := by
  obtain ⟨x, log, hx, hin⟩ := h.inStep i hlive
  have hself : logEvent i (portLog i es) (.sent i via env)
      = { x with sent := x.sent ++ [env] } :: log := by
    rw [hx]
    exact if_pos rfl
  refine queue_update h hself (fun j hj log => if_neg (Ne.symm hj)) ?_
    (fun y hy => hx ▸ mem_cons_of_mem _ hy)
  rw [InStep, PortSlot.content, hfree] at hin
  show x.sent ++ [env] = x.received ++ [env]
  rw [hin]
  simp

theorem queue_consume (via : Via) (receiver : Nat) (h : Queue ports es)
    (hlive : (ports i).live) (hfull : (ports i).slotOccupied) :
    Queue (update ports i (ports i).consume)
      (es ++ [.delivered i via receiver (ports i).staged]) := by
  obtain ⟨x, log, hx, hin⟩ := h.inStep i hlive
  have hself : logEvent i (portLog i es) (.delivered i via receiver (ports i).staged)
      = { x with received := x.received ++ [(ports i).staged] } :: log := by
    rw [hx]
    exact if_pos rfl
  refine queue_update h hself (fun j hj log => if_neg (Ne.symm hj)) ?_
    (fun y hy => hx ▸ mem_cons_of_mem _ hy)
  rw [InStep, PortSlot.content, hfull] at hin
  show x.sent = (x.received ++ [(ports i).staged]) ++ []
  rw [hin]
  simp

theorem queue_destroy (h : Queue ports es) (i : Fin 16) :
    Queue (update ports i (ports i).destroy) es := by
  refine ⟨fun j hj => ?_, h.fifo⟩
  rcases eq_or_ne j i with rfl | hji
  · rw [update_self] at hj
    exact nomatch hj
  · rw [update_of_ne hji] at hj ⊢
    exact h.inStep j hj

theorem queue_quiet (hq : Quiet k k') (h : Queue k.ports es) : Queue k'.ports es := by
  rw [(quiet_sameTables hq).1]
  exact h

/-- **A CALL PAST ITS CHECKS** keeps the ports in step; no envelope fails the checks on delivery. -/
theorem queue_does (hd : Does caller k p events k') (hp : p.carries P) (hk : Carries P k)
    (hok : ∀ i m, P i m → deliveredOk m) (h : Queue k.ports es) :
    Queue k'.ports (es ++ events) := by
  have hret : ∀ r, ∀ e ∈ [Event.returned caller r], e.plain := by
    intro r _ he
    rw [mem_singleton.mp he]
    rfl
  induction hd generalizing es with
  | fails => exact queue_plain h (hret _)
  | blocks =>
    rw [append_nil]
    exact h
  | @sends _ via _ env _ hi hfree =>
    have hst := queue_stage env via h (live_of_resolve hi) hfree
    have hend := queue_plain hst (hret .ok)
    rwa [append_assoc] at hend
  | @sendsRefused _ _ via _ env _ _ r hi hfree hq =>
    have hst := queue_stage env via h (live_of_resolve hi) hfree
    have hend := queue_quiet hq (queue_plain hst (hret r))
    rwa [append_assoc] at hend
  | @sendsOn _ _ _ via _ env _ _ _ _ hi hfree hq _ _ _ _ ih =>
    have hst := queue_stage env via h (live_of_resolve hi) hfree
    have hk' := carries_quiet hq (carries_slot hk rfl rfl (fun _ => carries_at hp hi))
    have hend := ih trivial hk' (queue_quiet hq hst)
    rwa [append_assoc] at hend
  | @delivers _ via _ receiver _ hi hfull =>
    have hst := queue_consume via receiver h (live_of_resolve hi) hfull
    have hend := queue_plain hst (hret .ok)
    rwa [append_assoc] at hend
  | @mangles _ _ _ _ i _ hfull hbad => exact nomatch hbad.symm.trans (hok i _ (hk.held i hfull))

/-- **ONE ACTION** keeps the ports in step. -/
theorem queue_acts (hk : Carries P k) (hok : ∀ i m, P i m → deliveredOk m)
    (hnew : ∀ c p, a = .ipc c → Enters k c p → p.carries P) (h : Queue k.ports es) :
    Queue (step k a).ports (es ++ report k a) := by
  cases acts k a with
  | idles hp _ he =>
    rw [hp]
    exact queue_plain h he
  | calls ha hq hin hd =>
    exact queue_does hd (hnew _ _ ha hin) (carries_quiet hq hk) hok (queue_quiet hq h)
  | @resumes _ _ i p _ _ hp hd =>
    refine queue_does hd (hk.toSend i p hp) ?_ hok h
    exact carries_call (e := i) hk rfl rfl (fun q hq => nomatch hq)
  | @creates owner sendCap recvCap _ _ _ hp _ he =>
    rw [hp, he]
    exact queue_update h (if_pos rfl) (fun _ hj _ => if_neg (Ne.symm hj)) rfl (fun _ hy => hy)
  | @destroys _ i _ _ hp _ he =>
    rw [hp, he, append_nil]
    exact queue_destroy h i

theorem queue_boot (caps : Caps) (handles : CapHandle.Table) (hook : Bool) :
    Queue (boot caps handles hook).ports [] := by
  refine ⟨fun i hi => (nomatch hi), fun i x hx => ?_⟩
  rw [mem_singleton.mp hx]
  exact ⟨prefix_rfl, Nat.le_succ 0⟩

/-- **EVERY RUN** keeps the ports in step and its envelopes traced. -/
theorem delivery_run (caps : Caps) (handles : CapHandle.Table) (hook : Bool) (as : List Action) :
    let k₀ := boot caps handles hook
    let es := emitted step report k₀ as
    Traced k₀ as (run step k₀ as) es ∧ Queue (run step k₀ as).ports es := by
  intro k₀ _
  refine run_history report (J := fun as k es => Traced k₀ as k es ∧ Queue k.ports es)
    ⟨traced_boot caps handles hook, queue_boot caps handles hook⟩ (fun as k es a h hk => ?_) as
  exact ⟨traced_step a h.1 hk, queue_acts (P := Passed k₀ (as ++ [a]))
    (carries_mono (passed_snoc a) h.1.1) (fun i m hm => hm.1)
    (fun c p ha hin => enters_passed hk ha hin) h.2⟩

/-! ## Refusals -/

/-- The action issues `ipc_call`, or resumes it before its receive. -/
def Action.ofCall (k : Kernel) : Action → Prop
  | .ipc (.call ..) => True
  | .turn ctxOk => ∃ t i p, dispatch k.tasks ctxOk = (t, .runs i) ∧ k.calls i = some p
      ∧ p.ofCall = true
  | _ => False

/-- An error leaves the ports alone, but for the request `ipc_call` has sent when its receive fails.
    -/
theorem does_refused (hd : Does caller k p events k')
    (hp : p.carries P) (hk : Carries P k) (hok : ∀ i m, P i m → deliveredOk m)
    (hm : Event.returned who r ∈ events) (hr : r ≠ .ok) :
    k'.ports = k.ports ∨ (p.ofCall ∧ ∃ i via env, Event.sent i via env ∈ events
      ∧ k'.ports = update k.ports i ((k.ports i).stage env)) := by
  induction hd with
  | fails => exact Or.inl rfl
  | blocks => exact nomatch hm
  | sends => simp [hr] at hm
  | @sendsRefused _ _ via _ env _ i _ _ _ hq =>
    refine Or.inr ⟨rfl, i, via, env, mem_cons_self, ?_⟩
    rw [(quiet_sameTables hq).1]
    rfl
  | @sendsOn _ _ _ via _ env _ i _ _ hi _ hq _ _ _ _ ih =>
    have hm' := mem_of_ne_of_mem (by simp) hm
    obtain hsame | ⟨hno, -⟩ := ih trivial
      (carries_quiet hq (carries_slot hk rfl rfl (fun _ => carries_at hp hi))) hm'
    · refine Or.inr ⟨rfl, i, via, env, mem_cons_self, ?_⟩
      rw [hsame, (quiet_sameTables hq).1]
      rfl
    · exact nomatch hno
  | delivers => simp [hr] at hm
  | @mangles _ _ _ _ i _ hfull hbad => exact nomatch hbad.symm.trans (hok i _ (hk.held i hfull))

theorem enters_ofCall (h : Enters k c p) (hp : p.ofCall) : Action.ofCall k (.ipc c) := by
  cases h with
  | call => trivial
  | _ => exact nomatch hp

theorem acts_refused (hk : Carries P k)
    (hok : ∀ i m, P i m → deliveredOk m) (hnew : ∀ c p, a = .ipc c → Enters k c p → p.carries P)
    (hm : Event.returned who r ∈ report k a) (hr : r ≠ .ok) :
    (step k a).ports = k.ports ∨ (Action.ofCall k a ∧ ∃ i via env, Event.sent i via env ∈ report k a
        ∧ (step k a).ports = update k.ports i ((k.ports i).stage env)) := by
  cases acts k a with
  | idles hp => exact Or.inl hp
  | calls ha hq hin hd =>
    subst ha
    have hres := does_refused hd (hnew _ _ rfl hin) (carries_quiet hq hk) hok hm hr
    rw [(quiet_sameTables hq).1] at hres
    exact hres.imp_right (And.imp_left (enters_ofCall hin))
  | @resumes _ t i p ha ht hp hd =>
    subst ha
    have hres := does_refused hd (hk.toSend i p hp)
      (carries_call (e := i) hk rfl rfl (fun q hq => nomatch hq)) hok hm hr
    exact hres.imp_right (And.imp_left (fun h => ⟨t, i, p, ht, hp, h⟩))
  | creates _ _ _ _ he | destroys _ _ _ _ he => simp [he] at hm

/-- A port of subject 3, a message subject 1 sends to it in the name of subject 2, and its receive.
    -/
def exchange : List Action :=
  [.capGrant 1 capIpcSend, .capGrant 3 capIpcRecv, .portCreate 3 capIpcSend capIpcRecv,
    .ipc (.send 1 0x00010000 (some ⟨0x1000, { zeroMsg with senderSubject := 2, tag := 7 }⟩)),
    .ipc (.recv 3 0x00010000 (some 0x1000))]

end Ipc
