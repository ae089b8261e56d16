import SecureOS.IpcOpsModel
import SecureOS.ProcSchedProofs

/-! # What one step of the message machine does

The checks of a call change nothing but the audit ring and standard output; from there on a call
transfers one envelope, blocks its process, or returns with everything as it was.  `ipc_call`
does so twice.

* `Acts`, `acts` — an action is a call past its checks, resumes one, makes or destroys a port,
  or touches neither ports nor calls. -/

namespace Ipc

open CapHandle (capGateCheckHandle capHandleOwner)
open Capability CapTable Process ProcSched Function

/-! ## The checks -/

/-- The same kernel but for the audit ring and standard output. -/
def Quiet (k k' : Kernel) : Prop :=
  ∃ audit out, k' = { k with caps := { k.caps with audit := audit }, stdout := out }

theorem quiet_refl (k : Kernel) : Quiet k k := ⟨k.caps.audit, k.stdout, rfl⟩

theorem quiet_trans (h1 : Quiet a b) (h2 : Quiet b c) : Quiet a c := by
  obtain ⟨_, _, rfl⟩ := h1
  obtain ⟨audit', out', rfl⟩ := h2
  exact ⟨audit', out', rfl⟩

theorem quiet_emit (k : Kernel) (subject cap : Nat) (resource : CStr) :
    Quiet k (ipcEmitDenyMarkerResource k subject cap resource) :=
  ⟨k.caps.audit, _, rfl⟩

theorem quiet_capCheck (k : Kernel) (subject cap : Nat) : Quiet k (k.capCheck subject cap).1 :=
  ⟨_, k.stdout, rfl⟩

theorem quiet_bounds (k : Kernel) (subject cap : Nat) (addr : BitVec 64) :
    Quiet k (ipcAspaceBoundsCheck k subject cap addr).1 := by
  rw [ipcAspaceBoundsCheck]
  cases processFindAspaceBySubject k.tasks.procs subject with
  | none => exact quiet_refl k
  | some =>
    dsimp only
    split
    · exact quiet_emit k subject cap denyResourceBounds
    · exact quiet_refl k

/-- The subject gate passes exactly for the holders of the capability. -/
theorem capIpcGate_spec (k : Kernel) (subject cap : Nat) : Quiet k (capIpcGate k subject cap).1
      ∧ ((capIpcGate k subject cap).2 = .ok ↔ capTableCheck k.caps.bits subject cap = .ok) := by
  have hq := quiet_capCheck k subject cap
  have hres : (k.capCheck subject cap).2 = capTableCheck k.caps.bits subject cap := rfl
  rw [capIpcGate, hres]
  split_ifs with h
  · exact ⟨quiet_trans hq (quiet_emit _ _ _ _), by simpa using h⟩
  · exact ⟨hq, by simpa using h⟩

/-- The handle gate passes exactly for the handles of the capability. -/
theorem capIpcHandleGate_spec (k : Kernel) (h : BitVec 32) (subject cap : Nat) :
    Quiet k (capIpcHandleGate k h subject cap).1 ∧ ((capIpcHandleGate k h subject cap).2 = .ok
        ↔ capGateCheckHandle k.handles h cap) := by
  have hq := quiet_capCheck k subject cap
  rw [capIpcHandleGate, capGateCheckHandle, decide_eq_true_eq]
  split_ifs with h
  · exact ⟨quiet_trans hq (quiet_emit _ _ _ _), by simpa using h⟩
  · exact ⟨hq, by simpa using h⟩

variable {p : Ports} {h : BitVec 32}

/-- A port query answers for the slot its handle names. -/
theorem portField_ok (hv : portField f p h = .ok v) : ∃ i, resolve p h = some i ∧ v = f (p i) := by
  rw [portField] at hv
  split at hv
  · exact nomatch hv
  · exact ⟨_, ‹_›, (Except.ok.inj hv).symm⟩

/-- An envelope that passes the outbound checks passes, stamped, the checks on delivery. -/
theorem deliveredOk_of_validate (hv : validateOutboundEnvelope (some m) = .ok) (hs : sender ≠ 0) :
    deliveredOk { m with senderSubject := sender } = true := by
  rw [validateOutboundEnvelope] at hv
  split_ifs at hv with ha hf hl
  rw [not_not] at ha hf
  simp [deliveredOk, hs, ha, hf, Nat.le_of_not_gt hl]

/-- Checks leave the kernel quiet and their answer is as `Q` says. -/
def Checked {R : Type} (k : Kernel) (Q : R → Prop) (r : Kernel × R) : Prop := Quiet k r.1 ∧ Q r.2

/-- A passed send: whose envelope it is, where it goes and by which right. -/
def Stamps (k : Kernel) (target : BitVec 32) (msg : Option MsgPtr) (sender : Nat)
    (right : Nat → Prop) (r : Except IpcResult Msg) : Prop :=
  ∀ env, r = .ok env → ∃ m i, msg = some m ∧ env = { m.msg with senderSubject := sender }
    ∧ deliveredOk env = true ∧ resolve k.ports target = some i ∧ right (k.ports i).sendCap

variable {k : Kernel}

theorem stamps_error : Stamps k target msg sender right (.error r) := fun _ h => nomatch h

theorem ipcSendChecks_spec (k : Kernel) (sender : Nat) (target : BitVec 32) (msg : Option MsgPtr) :
    Checked k (Stamps k target msg sender (fun cap => capTableCheck k.caps.bits sender cap = .ok))
      (ipcSendChecks k sender target msg) := by
  fun_cases ipcSendChecks k sender target msg with
  | case1 | case2 | case3 => exact ⟨quiet_refl k, stamps_error⟩
  | case4 => exact ⟨(capIpcGate_spec ..).1, stamps_error⟩
  | case5 | case6 => exact ⟨quiet_trans (capIpcGate_spec ..).1 (quiet_bounds ..), stamps_error⟩
  | case7 m hv cap hc gate hg bc _ hs =>
    obtain ⟨i, hi, rfl⟩ := portField_ok hc
    obtain ⟨hq, hgate⟩ := capIpcGate_spec k sender (k.ports i).sendCap
    refine ⟨quiet_trans hq (quiet_bounds ..), ?_⟩
    rintro _ ⟨⟩
    exact ⟨m, i, rfl, rfl, deliveredOk_of_validate (not_not.mp hv) hs, hi,
      hgate.mp (not_not.mp hg)⟩

theorem ipcSendHChecks_spec (k : Kernel) (h target : BitVec 32) (msg : Option MsgPtr) : Checked k
      (Stamps k target msg (capHandleOwner k.handles h)
        (fun cap => capGateCheckHandle k.handles h cap = true))
      (ipcSendHChecks k h target msg) := by
  fun_cases ipcSendHChecks k h target msg with
  | case1 | case2 | case3 => exact ⟨quiet_refl k, stamps_error⟩
  | case4 | case5 => exact ⟨(capIpcHandleGate_spec ..).1, stamps_error⟩
  | case6 => exact ⟨quiet_trans (capIpcHandleGate_spec ..).1 (quiet_bounds ..), stamps_error⟩
  | case7 m hv cap hc sender gate hg hs =>
    obtain ⟨i, hi, rfl⟩ := portField_ok hc
    obtain ⟨hq, hgate⟩ := capIpcHandleGate_spec k h sender (k.ports i).sendCap
    refine ⟨quiet_trans hq (quiet_bounds ..), ?_⟩
    rintro _ ⟨⟩
    exact ⟨m, i, rfl, rfl, deliveredOk_of_validate (not_not.mp hv) hs, hi,
      hgate.mp (not_not.mp hg)⟩

/-- A passed receive: whose port it is and by which right. -/
def Owns (k : Kernel) (selfPort : BitVec 32) (receiver : Nat) (right : Nat → Prop)
    (r : IpcResult) : Prop :=
  r = .ok → ∃ i, resolve k.ports selfPort = some i ∧ (k.ports i).owner = receiver
    ∧ right (k.ports i).recvCap

theorem portField_error (hr : portField f p h = .error r) : r = .errInvalidPort := by
  rw [portField] at hr
  split at hr
  · exact (Except.error.inj hr).symm
  · exact nomatch hr

/-- What the receive checks establish, over a gate that is quiet. -/
theorem recvChecks_spec
    (hgate : ∀ cap, Checked k (fun r => r = .ok → right cap) (gate k receiver cap))
    (selfPort : BitVec 32) (out : Option (BitVec 64)) :
    Checked k (Owns k selfPort receiver right) (recvChecks gate k receiver selfPort out) := by
  fun_cases recvChecks gate k receiver selfPort out with
  | case1 => exact ⟨quiet_refl k, fun h => (nomatch h)⟩
  | case2 _ _ herr | case4 _ _ _ _ _ herr =>
    obtain rfl := portField_error herr
    exact ⟨quiet_refl k, fun h => (nomatch h)⟩
  | case3 => exact ⟨quiet_emit .., fun h => (nomatch h)⟩
  | case5 _ _ _ _ cap _ _ hno => exact ⟨(hgate cap).1, fun h => absurd h hno⟩
  | case6 _ _ ho hown cap hc _ hg =>
    obtain ⟨i, hi, rfl⟩ := portField_ok ho
    rw [ipcPortRecvCap, portField, hi] at hc
    obtain rfl := Except.ok.inj hc
    obtain ⟨hq, hright⟩ := hgate (k.ports i).recvCap
    refine ⟨quiet_trans hq (quiet_bounds _ _ _ _), fun _ => ?_⟩
    exact ⟨i, hi, not_not.mp hown, hright (not_not.mp hg)⟩

theorem ipcRecvChecks_spec (k : Kernel) (receiver : Nat) (selfPort : BitVec 32)
    (out : Option (BitVec 64)) : Checked k
      (Owns k selfPort receiver (fun cap => capTableCheck k.caps.bits receiver cap = .ok))
      (ipcRecvChecks k receiver selfPort out) :=
  recvChecks_spec
    (fun cap => ⟨(capIpcGate_spec k receiver cap).1, (capIpcGate_spec k receiver cap).2.mp⟩)
    selfPort out

theorem ipcCallChecks_spec (k : Kernel) (caller : Nat) (target : BitVec 32)
    (req : Option MsgPtr) (replyPort : BitVec 32) (out : Option (BitVec 64)) : Checked k
      (fun r => Stamps k target req caller (fun cap => capTableCheck k.caps.bits caller cap = .ok) r
        ∧ ∀ env, r = .ok env → ∃ o, out = some o)
      (ipcCallChecks k caller target req replyPort out) := by
  fun_cases ipcCallChecks k caller target req replyPort out with
  | case1 | case2 => exact ⟨quiet_refl k, stamps_error, fun _ h => (nomatch h)⟩
  | case3 => exact ⟨quiet_emit .., stamps_error, fun _ h => (nomatch h)⟩
  | case4 hargs =>
    obtain ⟨hq, hsend⟩ := ipcSendChecks_spec k caller target req
    refine ⟨hq, hsend, fun _ _ => ?_⟩
    exact Option.ne_none_iff_exists'.mp (not_or.mp hargs).2

/-- What a call has shown past its checks: its right to the port, and the envelope stamped with that
    subject. -/
inductive Enters (k : Kernel) : Call → Pending → Prop
  | send {sender : Nat} {target : BitVec 32} {m : MsgPtr} {i : Fin 16}
      (hok : deliveredOk { m.msg with senderSubject := sender } = true)
      (hi : resolve k.ports target = some i)
      (hright : capTableCheck k.caps.bits sender (k.ports i).sendCap = .ok) :
      Enters k (.send sender target (some m))
        (.stage .subject target { m.msg with senderSubject := sender } none)
  | sendH {h target : BitVec 32} {m : MsgPtr} {i : Fin 16} (hok : deliveredOk
        { m.msg with senderSubject := capHandleOwner k.handles h } = true)
      (hi : resolve k.ports target = some i)
      (hright : capGateCheckHandle k.handles h (k.ports i).sendCap = true) :
      Enters k (.sendH h target (some m)) (.stage .handle target
          { m.msg with senderSubject := capHandleOwner k.handles h } none)
  | recv {receiver : Nat} {selfPort : BitVec 32} {out : Option (BitVec 64)} {i : Fin 16}
      (hi : resolve k.ports selfPort = some i) (hown : (k.ports i).owner = receiver)
      (hright : capTableCheck k.caps.bits receiver (k.ports i).recvCap = .ok) :
      Enters k (.recv receiver selfPort out) (.consume .subject selfPort receiver)
  | recvH {h selfPort : BitVec 32} {out : Option (BitVec 64)} {i : Fin 16}
      (hi : resolve k.ports selfPort = some i)
      (hown : (k.ports i).owner = capHandleOwner k.handles h)
      (hright : capGateCheckHandle k.handles h (k.ports i).recvCap = true) :
      Enters k (.recvH h selfPort out) (.consume .handle selfPort (capHandleOwner k.handles h))
  | call {caller : Nat} {target replyPort : BitVec 32} {m : MsgPtr} {out : BitVec 64}
      {i : Fin 16} (hok : deliveredOk { m.msg with senderSubject := caller } = true)
      (hi : resolve k.ports target = some i)
      (hright : capTableCheck k.caps.bits caller (k.ports i).sendCap = .ok) :
      Enters k (.call caller target (some m) replyPort (some out))
        (.stage .subject target { m.msg with senderSubject := caller }
          (some ⟨caller, replyPort, out⟩))

theorem map_eq_ok {r : Except IpcResult X} {y : Y}
    (h : r.map f = .ok y) : ∃ x, r = .ok x ∧ f x = y := by
  cases r with
  | error => exact nomatch h
  | ok x => exact ⟨x, rfl, Except.ok.inj h⟩

/-- **THE CHECKS OF A CALL** change audit ring and standard output only, and let through only what
    has shown its right. -/
theorem enter_spec (k : Kernel) (c : Call) :
    Checked k (fun r => ∀ p, r = .ok p → Enters k c p) (enter k c) := by
  cases c with
  | send sender target msg =>
    obtain ⟨hq, hs⟩ := ipcSendChecks_spec k sender target msg
    refine ⟨hq, fun p hp => ?_⟩
    obtain ⟨env, henv, rfl⟩ := map_eq_ok hp
    obtain ⟨_, _, rfl, rfl, hok, hi, hright⟩ := hs env henv
    exact .send hok hi hright
  | sendH h target msg =>
    obtain ⟨hq, hs⟩ := ipcSendHChecks_spec k h target msg
    refine ⟨hq, fun p hp => ?_⟩
    obtain ⟨env, henv, rfl⟩ := map_eq_ok hp
    obtain ⟨_, _, rfl, rfl, hok, hi, hright⟩ := hs env henv
    exact .sendH hok hi hright
  | recv receiver selfPort out =>
    obtain ⟨hq, ho⟩ := ipcRecvChecks_spec k receiver selfPort out
    refine ⟨hq, fun p hp => ?_⟩
    simp only [enter] at hp
    split_ifs at hp with hok
    obtain rfl := Except.ok.inj hp
    obtain ⟨_, hi, hown, hright⟩ := ho (not_not.mp hok)
    exact .recv hi hown hright
  | recvH h selfPort out =>
    obtain ⟨hq, ho⟩ : Checked k _ (ipcRecvHChecks k h selfPort out) :=
      recvChecks_spec (fun cap => ⟨(capIpcHandleGate_spec k h _ cap).1,
        (capIpcHandleGate_spec k h _ cap).2.mp⟩) selfPort out
    refine ⟨hq, fun p hp => ?_⟩
    simp only [enter] at hp
    split_ifs at hp with hok
    obtain rfl := Except.ok.inj hp
    obtain ⟨_, hi, hown, hright⟩ := ho (not_not.mp hok)
    exact .recvH hi hown hright
  | call caller target req replyPort out =>
    obtain ⟨hq, hs, hout⟩ := ipcCallChecks_spec k caller target req replyPort out
    refine ⟨hq, fun p hp => ?_⟩
    obtain ⟨env, henv, rfl⟩ := map_eq_ok hp
    obtain ⟨_, _, rfl, rfl, hok, hi, hright⟩ := hs env henv
    obtain ⟨_, rfl⟩ := hout _ henv
    exact .call hok hi hright

/-! ## The blocking loops -/

theorem resolve_eq_some_iff (p : Ports) (h : BitVec 32) (i : Fin 16) : resolve p h = some i
      ↔ GenHandle.decode 16 h = some (i, (p i).generation) ∧ (p i).live :=
  GenHandle.resolve_eq_some_iff (fun i => (p i).live) (fun i => (p i).generation) h i

/-- Rewriting a slot without its liveness and generation moves no handle. -/
theorem resolve_update (hl : s.live = (p i).live)
    (hg : s.generation = (p i).generation) (h : BitVec 32) :
    resolve (update p i s) h = resolve p h := by
  refine Option.ext fun j => ?_
  rw [resolve_eq_some_iff, resolve_eq_some_iff, update_apply]
  split_ifs with hj <;> simp [*]

/-- The kernel after an envelope went into a slot. -/
def Kernel.afterStage (k : Kernel) (i : Fin 16) (env : Msg) : Kernel :=
  { k with
    ports := update k.ports i ((k.ports i).stage env)
    tasks := (procSchedWakeOneOnPort k.tasks (some i)).1 }

/-- The kernel after an envelope was taken out of a slot. -/
def Kernel.afterConsume (k : Kernel) (i : Fin 16) : Kernel :=
  { k with
    ports := update k.ports i (k.ports i).consume
    tasks := (procSchedWakeOneOnPort k.tasks (some i)).1 }

/-- The kernel after the running entry blocked on a slot inside a call. -/
def Kernel.afterBlock (k : Kernel) (c i : Fin 16) (p : Pending) : Kernel :=
  { k with
    tasks := (procSchedBlockCurrentOnPort k.tasks (some i)).1
    calls := update k.calls c (some p) }

/-- What an attempt does at the slot its port names: it fails where there is none, fails for now
    where the slot bars it, and else rewrites the slot and gets something out of it. -/
structure Attempt {E : Type} (attempt : Ports → Ports × IpcResult × E) (port : BitVec 32)
    (bars : PortSlot → Bool) (next : PortSlot → PortSlot) (nothing : E)
    (got : PortSlot → E) : Prop where
  gone : ∀ p, resolve p port = none → attempt p = (p, .errInvalidPort, nothing)
  barred : ∀ p i, resolve p port = some i → bars (p i) = true →
    attempt p = (p, .errPeerGone, nothing)
  goes : ∀ p i, resolve p port = some i → bars (p i) = false →
    attempt p = (update p i (next (p i)), .ok, got (p i))
  keeps : ∀ s, (next s).live = s.live ∧ (next s).generation = s.generation

/-- One turn of a blocking loop: the attempt succeeds and the port's first waiter is woken, it fails
    for good because there is no port or no process that could wait, or the running process blocks.
    -/
theorem blockingTurn_cases (h : Attempt attempt port bars next nothing got) (k : Kernel) :
    (∃ i, resolve k.ports port = some i ∧ bars (k.ports i) = false
        ∧ blockingTurn attempt port k
          = ({ k with
                ports := update k.ports i (next (k.ports i))
                tasks := (procSchedWakeOneOnPort k.tasks (some i)).1 },
              some (.ok, got (k.ports i))))
      ∨ (∃ r, r ≠ .ok ∧ (resolve k.ports port = none ∨ procSchedIsActive k.tasks = false)
        ∧ blockingTurn attempt port k = (k, some (r, nothing)))
      ∨ ∃ c i, k.tasks.dispatching = true ∧ k.tasks.current = some c
        ∧ resolve k.ports port = some i ∧ bars (k.ports i) = true
        ∧ blockingTurn attempt port k
          = ({ k with tasks := (procSchedBlockCurrentOnPort k.tasks (some i)).1 }, none) := by
  cases hi : resolve k.ports port with
  | none =>
    refine Or.inr (Or.inl ⟨.errInvalidPort, fun hr => (nomatch hr), Or.inl rfl, ?_⟩)
    simp [blockingTurn, h.gone _ hi]
  | some i =>
    cases hb : bars (k.ports i) with
    | false =>
      refine Or.inl ⟨i, rfl, hb, ?_⟩
      obtain ⟨hl, hg⟩ := h.keeps (k.ports i)
      simp [blockingTurn, h.goes _ i hi hb, ipcPortWaitToken, resolve_update hl hg, hi]
    | true =>
      by_cases hact : procSchedIsActive k.tasks = true
      · obtain ⟨hdisp, c, hc⟩ := (isActive_iff k.tasks).mp hact
        refine Or.inr (Or.inr ⟨c, i, hdisp, hc, rfl, hb, ?_⟩)
        simp [blockingTurn, h.barred _ i hi hb, hact, ipcPortWaitToken, hi, block_ok hc i]
      · rw [Bool.not_eq_true] at hact
        refine Or.inr (Or.inl ⟨.errPeerGone, fun hr => (nomatch hr), Or.inr hact, ?_⟩)
        simp [blockingTurn, h.barred _ i hi hb, hact]

/-- **A SEND'S ATTEMPT** fills an empty slot. -/
theorem stage_attempt (target : BitVec 32) (env : Msg) : Attempt
      (fun p => ((ipcPortStage p target env).1, (ipcPortStage p target env).2, ()))
      target (fun s => s.slotOccupied) (fun s => s.stage env) () (fun _ => ()) where
  gone p hi := by simp [ipcPortStage, hi]
  barred p i hi hb := by simp [ipcPortStage, hi, hb]
  goes p i hi hb := by simp [ipcPortStage, hi, hb]
  keeps s := ⟨rfl, rfl⟩

/-- **A RECEIVE'S ATTEMPT** empties a full slot. -/
theorem consume_attempt (selfPort : BitVec 32) :
    Attempt (fun p => ipcPortConsume p selfPort) selfPort (fun s => !s.slotOccupied)
      PortSlot.consume zeroMsg PortSlot.staged where
  gone p hi := by simp [ipcPortConsume, hi]
  barred p i hi hb := by simp_all [ipcPortConsume]
  goes p i hi hb := by simp_all [ipcPortConsume]
  keeps s := ⟨rfl, rfl⟩

/-! ## Calls past their checks -/

/-- The slot is not in the state the call needs. -/
def Pending.barred (p : Pending) (s : PortSlot) : Bool :=
  match p with
  | .stage .. => s.slotOccupied
  | .consume .. => !s.slotOccupied

/-- The pending call is the first half of `ipc_call`. -/
def Pending.ofCall : Pending → Bool
  | .stage _ _ _ reply => reply.isSome
  | .consume _ _ _ => false

/-- The outcomes of a call past its checks, by the entry that runs it. -/
inductive Does (caller : Option (Fin 16)) : Kernel → Pending → List Event → Kernel → Prop
  /-- it returns an error and nothing has changed: no such port, or no process that could wait -/
  | fails {k : Kernel} {p : Pending} {r : IpcResult} (hr : r ≠ .ok)
      (hwhy : resolve k.ports p.port = none ∨ procSchedIsActive k.tasks = false) :
      Does caller k p [.returned caller r] k
  /-- it blocks the process that runs -/
  | blocks {k : Kernel} {p : Pending} {c i : Fin 16} (hd : k.tasks.dispatching = true)
      (hc : k.tasks.current = some c) (hcaller : caller = some c)
      (hi : resolve k.ports p.port = some i) (hb : p.barred (k.ports i) = true) :
      Does caller k p [] (k.afterBlock c i p)
  /-- an envelope goes in -/
  | sends {k : Kernel} {via : Via} {target : BitVec 32} {env : Msg} {i : Fin 16}
      (hi : resolve k.ports target = some i) (hfree : (k.ports i).slotOccupied = false) :
      Does caller k (.stage via target env none) [.sent i via env, .returned caller .ok]
        (k.afterStage i env)
  /-- an envelope goes in and the reply of `ipc_call` is refused -/
  | sendsRefused {k k' : Kernel} {via : Via} {target : BitVec 32} {env : Msg} {rp : Reply}
      {i : Fin 16} {r : IpcResult} (hi : resolve k.ports target = some i)
      (hfree : (k.ports i).slotOccupied = false) (hq : Quiet (k.afterStage i env) k')
      (hr : r ≠ .ok) :
      Does caller k (.stage via target env (some rp)) [.sent i via env, .returned caller r] k'
  /-- an envelope goes in and `ipc_call` goes on to its reply -/
  | sendsOn {k k' k'' : Kernel} {via : Via} {target : BitVec 32} {env : Msg} {rp : Reply}
      {i j : Fin 16} {events : List Event} (hi : resolve k.ports target = some i)
      (hfree : (k.ports i).slotOccupied = false) (hq : Quiet (k.afterStage i env) k')
      (hj : resolve k.ports rp.replyPort = some j)
      (hown : (k.ports j).owner = rp.caller)
      (hright : capTableCheck k.caps.bits rp.caller (k.ports j).recvCap = .ok)
      (hon : Does caller k' (.consume .subject rp.replyPort rp.caller) events k'') :
      Does caller k (.stage via target env (some rp)) (.sent i via env :: events) k''
  /-- an envelope comes out -/
  | delivers {k : Kernel} {via : Via} {selfPort : BitVec 32} {receiver : Nat} {i : Fin 16}
      (hi : resolve k.ports selfPort = some i) (hfull : (k.ports i).slotOccupied = true)
      (hok : deliveredOk (k.ports i).staged = true) :
      Does caller k (.consume via selfPort receiver)
        [.delivered i via receiver (k.ports i).staged, .returned caller .ok]
        (k.afterConsume i)
  /-- an envelope comes out that fails the checks on delivery -/
  | mangles {k : Kernel} {via : Via} {selfPort : BitVec 32} {receiver : Nat} {i : Fin 16}
      (hi : resolve k.ports selfPort = some i) (hfull : (k.ports i).slotOccupied = true)
      (hbad : deliveredOk (k.ports i).staged = false) :
      Does caller k (.consume via selfPort receiver)
        [.mangled i (k.ports i).staged, .returned caller .errInvalidMsg] (k.afterConsume i)

theorem slotEvents_of_resolve (hi : resolve p h = some i) (f : Fin 16 → Event) :
    slotEvents p h f = [f i] := by
  rw [slotEvents, hi]
  rfl

theorem performConsume_does (hcaller : caller = k.tasks.current)
    (via : Via) (selfPort : BitVec 32) (receiver : Nat) :
    Does caller k (.consume via selfPort receiver) (performConsume k caller via selfPort receiver).2
      (performConsume k caller via selfPort receiver).1 := by
  rw [performConsume]
  obtain ⟨i, hi, hfull, he⟩ | ⟨_, hr, hwhy, he⟩ | ⟨_, i, hd, hc, hi, hfree, he⟩ :=
    blockingTurn_cases (consume_attempt selfPort) k
  · rw [Bool.not_eq_false'] at hfull
    rw [consumeTurn, he]
    cases hok : deliveredOk (k.ports i).staged with
    | true =>
      simp only [hok, slotEvents_of_resolve hi]
      exact .delivers hi hfull hok
    | false =>
      simp only [ne_eq, not_true_eq_false, if_false, hok, Bool.false_eq_true,
        slotEvents_of_resolve hi]
      exact .mangles hi hfull hok
  · rw [consumeTurn, he]
    simp only [ne_eq, hr]
    exact .fails hr hwhy
  · rw [consumeTurn, he, hcaller, hc]
    exact .blocks hd hc rfl hi hfree

/-- **A CALL PAST ITS CHECKS** has one of these outcomes. -/
theorem perform_does (hcaller : caller = k.tasks.current) (p : Pending) :
    Does caller k p (perform k caller p).2 (perform k caller p).1 := by
  cases p with
  | consume via selfPort receiver => exact performConsume_does hcaller via selfPort receiver
  | stage _ target env reply =>
    rw [perform]
    obtain ⟨i, hi, hfree, he⟩ | ⟨_, hr, hwhy, he⟩ | ⟨_, i, hd, hc, hi, hfull, he⟩ :=
      blockingTurn_cases (stage_attempt target env) k
    · rw [show stageTurn target env k = (k.afterStage i env, some (.ok, ())) from he]
      cases reply with
      | none =>
        simp only [slotEvents_of_resolve hi]
        exact .sends hi hfree
      | some rp =>
        simp only [ne_eq, slotEvents_of_resolve hi]
        obtain ⟨hq, howns⟩ := ipcRecvChecks_spec (k.afterStage i env) rp.caller
          rp.replyPort (some rp.outReply)
        by_cases hok : (ipcRecvChecks (k.afterStage i env) rp.caller rp.replyPort
            (some rp.outReply)).2 = .ok
        · simp only [hok, not_true_eq_false, if_false]
          obtain ⟨j, hj, hown, hright⟩ := howns hok
          -- the stage moved no handle and changed no owner or capability
          have hj' : resolve k.ports rp.replyPort = some j := by
            rw [← hj]
            exact (resolve_update (s := (k.ports i).stage env) rfl rfl rp.replyPort).symm
          have hslot : ((k.afterStage i env).ports j).owner = (k.ports j).owner
              ∧ ((k.afterStage i env).ports j).recvCap = (k.ports j).recvCap := by
            show (update k.ports i _ j).owner = _
              ∧ (update k.ports i _ j).recvCap = _
            by_cases hji : j = i
            · subst hji; rw [update_self]; exact ⟨rfl, rfl⟩
            · rw [update_of_ne hji]; exact ⟨rfl, rfl⟩
          rw [hslot.1] at hown
          rw [hslot.2] at hright
          refine .sendsOn hi hfree hq hj' hown hright (performConsume_does ?_ _ _ _)
          obtain ⟨_, _, hk'⟩ := hq
          rw [hk', hcaller]
          exact (wake_current k.tasks i).symm
        · simp only [hok, not_false_eq_true, if_true]
          exact .sendsRefused hi hfree hq hok
    · rw [stageTurn, he]
      simp only [ne_eq, hr]
      exact .fails hr hwhy
    · rw [stageTurn, he, hcaller, hc]
      exact .blocks hd hc rfl hi hfull

/-! ## One action -/

/-- The parts of the kernel that only calls, port actions and revocations write. -/
def SameTables (k k' : Kernel) : Prop :=
  k'.ports = k.ports ∧ k'.calls = k.calls ∧ k'.caps.bits = k.caps.bits
    ∧ k'.handles = k.handles

/-- An event that no transfer and no new port is behind. -/
def Event.plain : Event → Bool
  | .returned _ _ => true
  | .runReturned _ => true
  | _ => false

theorem quiet_sameTables (h : Quiet k k') : SameTables k k' := by
  obtain ⟨_, _, rfl⟩ := h
  exact ⟨rfl, rfl, rfl, rfl⟩

/-- **A CALL** is refused by its checks, which change no table, or goes on with the right it showed.
    -/
theorem execCall_cases (k : Kernel) (c : Call) :
    (∃ k' r, Quiet k k' ∧ execCall k c = (k', [.returned k.tasks.current r]))
      ∨ ∃ k' p, Quiet k k' ∧ Enters k c p
        ∧ Does k.tasks.current k' p (execCall k c).2 (execCall k c).1 := by
  obtain ⟨hq, hpass⟩ := enter_spec k c
  rw [execCall]
  generalize enter k c = r at hq hpass
  obtain ⟨k', res⟩ := r
  cases res with
  | error r => exact Or.inl ⟨k', r, hq, rfl⟩
  | ok p =>
    refine Or.inr ⟨k', p, hq, hpass p rfl, perform_does ?_ p⟩
    obtain ⟨_, _, rfl⟩ := hq
    rfl

/-- **A TURN OF THE LOOP** resumes the call a process was blocked inside, or touches no table. -/
theorem execTurn_cases (k : Kernel) (ctxOk : Bool) : (SameTables k (execTurn k ctxOk).1
        ∧ ∀ e ∈ (execTurn k ctxOk).2, e.plain)
      ∨ ∃ t i p, dispatch k.tasks ctxOk = (t, .runs i) ∧ k.calls i = some p
        ∧ Does (some i) { k with tasks := t, calls := update k.calls i none } p
            (execTurn k ctxOk).2 (execTurn k ctxOk).1 := by
  rw [execTurn]
  cases hd : dispatch k.tasks ctxOk with
  | mk t turn =>
    cases turn with
    | drained => exact Or.inl ⟨⟨rfl, rfl, rfl, rfl⟩, by simp [Event.plain]⟩
    | skipped => exact Or.inl ⟨⟨rfl, rfl, rfl, rfl⟩, by simp⟩
    | violated =>
      left
      dsimp only
      split <;> exact ⟨⟨rfl, rfl, rfl, rfl⟩, by simp⟩
    | runs i =>
      dsimp only
      cases hc : k.calls i with
      | none => exact Or.inl ⟨⟨rfl, rfl, rfl, rfl⟩, by simp⟩
      | some p => exact Or.inr ⟨t, i, p, rfl, hc, perform_does (dispatch_runs_current hd).symm p⟩

theorem exec_of_enabled (h : enabled k a) : exec k a = execEnabled k a := if_pos h

theorem exec_of_disabled (h : enabled k a = false) : exec k a = (k, []) := if_neg (by simp [h])

/-- A new port takes a dead slot. -/
theorem ipcPortCreate_cases (p : Ports) (owner sendCap recvCap : Nat) :
    let r := ipcPortCreate p owner sendCap recvCap
    (r.1 = p ∧ r.2.2 = none)
      ∨ ∃ i, (p i).live = false ∧ r.1 = update p i ((p i).create owner sendCap recvCap)
        ∧ r.2.2 = some (i, encodeHandle i (p i).generation) := by
  rw [ipcPortCreate]
  split_ifs
  · exact Or.inl ⟨rfl, rfl⟩
  · cases hf : Fin.find? (fun i => !(p i).live) with
    | none => exact Or.inl ⟨rfl, rfl⟩
    | some i =>
      have hdead : (!(p i).live) := (Fin.find?_eq_some_iff.mp hf).1
      exact Or.inr ⟨i, by simpa using hdead, rfl, rfl⟩

/-- What an action does to ports and calls. -/
inductive Acts (k : Kernel) (a : Action) : Prop
  /-- nothing: it is not enabled, a call its checks refuse, or no port action -/
  | idles (hp : (step k a).ports = k.ports) (hc : (step k a).calls = k.calls)
      (he : ∀ e ∈ report k a, e.plain = true)
  /-- a call goes on past its checks -/
  | calls {c : Call} {k' : Kernel} {p : Pending} (ha : a = .ipc c) (hq : Quiet k k')
      (hin : Enters k c p) (hd : Does k.tasks.current k' p (report k a) (step k a))
  /-- the loop resumes a call -/
  | resumes {ctxOk : Bool} {t : Tasks} {i : Fin 16} {p : Pending} (ha : a = .turn ctxOk)
      (ht : dispatch k.tasks ctxOk = (t, .runs i)) (hp : k.calls i = some p)
      (hd : Does (some i) { k with tasks := t, calls := update k.calls i none } p
        (report k a) (step k a))
  /-- a port is made in a dead slot -/
  | creates {owner sendCap recvCap : Nat} {i : Fin 16}
      (ha : a = .portCreate owner sendCap recvCap) (hdead : (k.ports i).live = false)
      (hp : (step k a).ports
        = update k.ports i ((k.ports i).create owner sendCap recvCap))
      (hc : (step k a).calls = k.calls)
      (he : report k a = [.created i (encodeHandle i (k.ports i).generation)])
  /-- a live port is destroyed -/
  | destroys {h : BitVec 32} {i : Fin 16} (ha : a = .portDestroy h)
      (hi : resolve k.ports h = some i)
      (hp : (step k a).ports = update k.ports i (k.ports i).destroy)
      (hc : (step k a).calls = k.calls) (he : report k a = [])

/-- **ONE ACTION** does one of these to ports and calls. -/
theorem acts (k : Kernel) (a : Action) : Acts k a := by
  cases hen : enabled k a with
  | false =>
    refine .idles ?_ ?_ ?_
    · rw [step, exec_of_disabled hen]
    · rw [step, exec_of_disabled hen]
    · rw [report, exec_of_disabled hen]
      exact fun e he => nomatch he
  | true =>
    have hs : step k a = (execEnabled k a).1 := by rw [step, exec_of_enabled hen]
    have hr : report k a = (execEnabled k a).2 := by rw [report, exec_of_enabled hen]
    -- the actions that write neither ports nor calls and report nothing
    have hidle : (execEnabled k a).1.ports = k.ports →
        (execEnabled k a).1.calls = k.calls → (execEnabled k a).2 = [] → Acts k a := by
      intro hp hc he
      refine .idles (hs ▸ hp) (hs ▸ hc) ?_
      rw [hr, he]
      exact fun e h => nomatch h
    cases a with
    | ipc c =>
      obtain ⟨_, _, hq, hc⟩ | ⟨_, _, hq, hin, hd⟩ := execCall_cases k c
      · obtain ⟨hports, hcalls, -, -⟩ := quiet_sameTables hq
        rw [execEnabled, hc] at hs hr
        exact .idles (hs ▸ hports) (hs ▸ hcalls) (by simp [hr, Event.plain])
      · refine .calls rfl hq hin ?_
        rw [hs, hr]
        exact hd
    | turn ctxOk =>
      obtain ⟨⟨hports, hcalls, -, -⟩, hf⟩ | ⟨_, _, _, ht, hp, hd⟩ := execTurn_cases k ctxOk
      · exact .idles (hs ▸ hports) (hs ▸ hcalls) (hr ▸ hf)
      · refine .resumes rfl ht hp ?_
        rw [hs, hr]
        exact hd
    | portCreate owner sendCap recvCap =>
      obtain ⟨hp, hn⟩ | ⟨_, hdead, hp, hn⟩ := ipcPortCreate_cases k.ports owner sendCap recvCap
      · refine hidle hp rfl ?_
        rw [execEnabled, hn]
        rfl
      · refine .creates rfl hdead (hs ▸ hp) (hs ▸ rfl) ?_
        rw [hr, execEnabled, hn]
        rfl
    | portDestroy h =>
      cases hi : resolve k.ports h with
      | none =>
        refine hidle ?_ rfl rfl
        rw [execEnabled, ipcPortDestroy, hi]
      | some =>
        refine .destroys rfl hi ?_ (hs ▸ rfl) (hr ▸ rfl)
        rw [hs, execEnabled, ipcPortDestroy, hi]
    | _ => exact hidle rfl rfl rfl

end Ipc
