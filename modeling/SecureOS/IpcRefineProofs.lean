import SecureOS.CapHandleTableProofs
import SecureOS.IpcStepProofs

/-! # Handle calls against subject calls

`ipc_send_h` and `ipc_recv_h` take the subject from the handle and ask the handle table;
`ipc_send` and `ipc_recv` take it from the caller and ask the capability table.  Where both
tables let the subject through, the two calls leave the same kernel, but for the note of which
entry point a blocked call came in by. -/

namespace Ipc

open Capability CapTable MachineRun Process ProcSched Function CapHandle

/-! ## Without the entry point -/

/-- The call, as if it had come in by subject. -/
def Pending.untag : Pending → Pending
  | .stage _ target outbound reply => .stage .subject target outbound reply
  | .consume _ selfPort receiver => .consume .subject selfPort receiver

/-- The event, as if its call had come in by subject. -/
def Event.untag : Event → Event
  | .sent i _ env => .sent i .subject env
  | .delivered i _ receiver env => .delivered i .subject receiver env
  | e => e

/-- The blocked calls without the entry points they came in by. -/
def untagCalls (calls : Fin 16 → Option Pending) : Fin 16 → Option Pending :=
  fun c => (calls c).map Pending.untag

/-- The kernel without the entry points of its blocked calls. -/
def Kernel.untag (k : Kernel) : Kernel := { k with calls := untagCalls k.calls }

/-- A step without entry points. -/
def untagStep (r : Kernel × List Event) : Kernel × List Event := (r.1.untag, r.2.map Event.untag)

theorem untag_untag (p : Pending) : p.untag.untag = p.untag := by cases p <;> rfl

theorem untagCalls_untagCalls (calls : Fin 16 → Option Pending) :
    untagCalls (untagCalls calls) = untagCalls calls := by
  funext c
  show ((calls c).map Pending.untag).map Pending.untag = (calls c).map Pending.untag
  cases calls c with
  | none => rfl
  | some p => exact congrArg some (untag_untag p)

theorem kernel_untag_untag (k : Kernel) : k.untag.untag = k.untag := by
  show { k with calls := untagCalls (untagCalls k.calls) } = { k with calls := untagCalls k.calls }
  rw [untagCalls_untagCalls]

theorem untagCalls_update (calls : Fin 16 → Option Pending) (c : Fin 16) (p : Option Pending) :
    untagCalls (update calls c p) = update (untagCalls calls) c (p.map Pending.untag) := by
  funext c'
  simp only [untagCalls, update_apply]
  split_ifs <;> rfl

theorem suspend_untag (k : Kernel) (caller : Option (Fin 16)) (p : Pending) :
    (k.suspend caller p).untag = k.untag.suspend caller p.untag := by
  cases caller with
  | none => rfl
  | some c =>
    show { k with calls := untagCalls (update k.calls c (some p)) } = _
    rw [untagCalls_update]
    rfl

/-! ## What the blocked calls have no part in -/

/-- The computation neither reads nor writes the blocked calls. -/
def Blind {R : Type} (f : Kernel → Kernel × R) : Prop :=
  ∀ k calls, f { k with calls := calls } = ({ (f k).1 with calls := calls }, (f k).2)

variable {R : Type}

theorem blind_calls (hf : Blind f) (k : Kernel) : (f k).1.calls = k.calls :=
  congrArg (fun r => r.1.calls) (hf k k.calls)

theorem blind_untag (hf : Blind f) (k : Kernel) : f k.untag = ((f k).1.untag, (f k).2) := by
  rw [Kernel.untag, hf, Kernel.untag, blind_calls hf]

theorem untagStep_of_blind (hf : Blind f) (k : Kernel) :
    untagStep (f k.untag) = untagStep (f k) := by
  rw [blind_untag hf, untagStep, untagStep, kernel_untag_untag]

theorem blind_bounds (subject cap : Nat) (addr : BitVec 64) :
    Blind (fun k => ipcAspaceBoundsCheck k subject cap addr) := by
  intro _ _
  simp only [ipcAspaceBoundsCheck]
  split
  · rfl
  · split <;> rfl

theorem blind_gate (subject cap : Nat) : Blind (fun k => capIpcGate k subject cap) := by
  intro k calls
  show capIpcGate { k with calls := calls } subject cap
    = ({ (capIpcGate k subject cap).1 with calls := calls }, (capIpcGate k subject cap).2)
  have hres : (Kernel.capCheck { k with calls := calls } subject cap).2
      = (k.capCheck subject cap).2 := rfl
  rw [capIpcGate, capIpcGate, hres]
  split_ifs <;> rfl

theorem blind_handleGate (h : BitVec 32) (subject cap : Nat) :
    Blind (fun k => capIpcHandleGate k h subject cap) := by
  intro _ _
  simp only [capIpcHandleGate]
  split <;> rfl

/-- A computation that goes on after a blind check only if it is passed. -/
theorem blind_guard {e : IpcResult → R} (hf : Blind f) (hg : Blind g) :
    Blind (fun k => if (f k).2 ≠ .ok then ((f k).1, e (f k).2) else g (f k).1) := by
  intro k calls
  simp only [hf k calls]
  split
  · rfl
  · exact hg (f k).1 calls

theorem blind_answer (r : R) : Blind (fun k => (k, r)) := fun _ _ => rfl

theorem blind_sendChecks (sender : Nat) (target : BitVec 32) (msg : Option MsgPtr) :
    Blind (fun k => ipcSendChecks k sender target msg) := by
  cases msg with
  | none => exact blind_answer _
  | some m =>
    have hlast : Blind (fun k => if sender = 0 then
        (k, (.error .errInvalidMsg : Except IpcResult Msg))
        else (k, .ok { m.msg with senderSubject := sender })) := by
      intro k calls
      split <;> rfl
    intro k calls
    simp only [ipcSendChecks]
    split
    · rfl
    split
    · rfl
    · next required _ =>
        exact blind_guard (e := Except.error) (blind_gate sender required)
          (blind_guard (e := Except.error) (blind_bounds sender required m.addr) hlast) k calls

theorem blind_sendHChecks (h target : BitVec 32) (msg : Option MsgPtr) :
    Blind (fun k => ipcSendHChecks k h target msg) := by
  cases msg with
  | none => exact blind_answer _
  | some m =>
    intro k calls
    simp only [ipcSendHChecks]
    split
    · rfl
    split
    · rfl
    · next required _ =>
        have hgate := blind_handleGate h (capHandleOwner k.handles h) required
        by_cases hs : capHandleOwner k.handles h = 0
        · simp only [if_pos hs]
          exact blind_guard (e := Except.error) hgate (blind_answer _) k calls
        · simp only [if_neg hs]
          exact blind_guard (e := Except.error) hgate
            (blind_guard (e := Except.error) (blind_bounds _ required m.addr) (blind_answer _))
            k calls

theorem blind_recvChecks (hgate : ∀ subject cap, Blind (fun k => gate k subject cap))
    (receiver : Nat) (selfPort : BitVec 32) (outMsg : Option (BitVec 64)) :
    Blind (fun k => recvChecks gate k receiver selfPort outMsg) := by
  cases outMsg with
  | none => exact blind_answer _
  | some addr =>
    intro k calls
    simp only [recvChecks]
    split
    · rfl
    split
    · rfl
    split
    · rfl
    · next required _ =>
        exact blind_guard (e := id) (hgate receiver required)
          (blind_bounds receiver required addr) k calls

theorem blind_callChecks (caller : Nat) (target : BitVec 32) (req : Option MsgPtr)
    (replyPort : BitVec 32) (outReply : Option (BitVec 64)) :
    Blind (fun k => ipcCallChecks k caller target req replyPort outReply) := by
  intro k calls
  simp only [ipcCallChecks]
  split
  · rfl
  split
  · rfl
  split
  · rfl
  · exact blind_sendChecks caller target req k calls

/-- The answer of a blind computation, seen through a function. -/
theorem blind_map (hf : Blind f) (g : R → Q) : Blind (fun k => ((f k).1, g (f k).2)) := by
  intro k calls
  show ((f { k with calls := calls }).1, g (f { k with calls := calls }).2) = _
  rw [hf k calls]

/-- The receive paths after their checks. -/
def goOn (p : Pending) (r : IpcResult) : Except IpcResult Pending :=
  if r ≠ .ok then .error r else .ok p

/-- **THE CHECKS** of no call depend on the blocked ones. -/
theorem blind_enter (c : Call) : Blind (fun k => enter k c) := by
  cases c with
  | send sender target msg => exact blind_map (blind_sendChecks sender target msg) _
  | sendH h target msg => exact blind_map (blind_sendHChecks h target msg) _
  | recv receiver selfPort outMsg =>
    exact blind_map (blind_recvChecks blind_gate receiver selfPort outMsg)
      (goOn (.consume .subject selfPort receiver))
  | recvH h selfPort outMsg =>
    intro k calls
    exact blind_map (blind_recvChecks (blind_handleGate h) (capHandleOwner k.handles h)
      selfPort outMsg) (goOn (.consume .handle selfPort (capHandleOwner k.handles h)))
      k calls
  | call caller target req replyPort outReply =>
    exact blind_map (blind_callChecks caller target req replyPort outReply) _

theorem blind_blockingTurn (attempt : Ports → Ports × IpcResult × E)
    (port : BitVec 32) : Blind (fun k => blockingTurn attempt port k) := by
  intro _ _
  simp only [blockingTurn]
  repeat' split
  all_goals rfl

/-! ## No action depends on the entry point of a blocked call -/

theorem performConsume_untag (k : Kernel) (caller : Option (Fin 16)) (via : Via)
    (selfPort : BitVec 32) (receiver : Nat) :
    untagStep (performConsume k.untag caller .subject selfPort receiver)
      = untagStep (performConsume k caller via selfPort receiver) := by
  have hturn : consumeTurn selfPort k.untag
      = ((consumeTurn selfPort k).1.untag, (consumeTurn selfPort k).2) :=
    blind_untag (blind_blockingTurn (fun p => ipcPortConsume p selfPort) selfPort) k
  have hports : k.untag.ports = k.ports := rfl
  rw [performConsume, performConsume, hturn, hports]
  cases consumeTurn selfPort k with
  | mk k' out =>
    cases out with
    | none =>
      show (((k'.untag.suspend caller (.consume .subject selfPort receiver)).untag, []) :
          Kernel × List Event)
        = ((k'.suspend caller (.consume via selfPort receiver)).untag, [])
      rw [suspend_untag, suspend_untag, kernel_untag_untag]
      rfl
    | some x =>
      obtain ⟨_, _⟩ := x
      dsimp only
      split_ifs
      · rw [untagStep, untagStep, kernel_untag_untag]
      · simp only [untagStep, kernel_untag_untag, slotEvents]
        cases resolve k.ports selfPort <;> rfl
      · simp only [untagStep, kernel_untag_untag]

/-- The part of a send after its envelope went in. -/
def afterSend (k : Kernel) (caller : Option (Fin 16)) : Option Reply → Kernel × List Event
  | none => (k, [.returned caller .ok])
  | some rp =>
    if (ipcRecvChecks k rp.caller rp.replyPort (some rp.outReply)).2 ≠ .ok then
      ((ipcRecvChecks k rp.caller rp.replyPort (some rp.outReply)).1,
        [.returned caller (ipcRecvChecks k rp.caller rp.replyPort (some rp.outReply)).2])
    else performConsume (ipcRecvChecks k rp.caller rp.replyPort (some rp.outReply)).1 caller
      .subject rp.replyPort rp.caller

theorem afterSend_untag (k : Kernel) (caller : Option (Fin 16)) (reply : Option Reply) :
    untagStep (afterSend k.untag caller reply) = untagStep (afterSend k caller reply) := by
  cases reply with
  | none => rw [afterSend, afterSend, untagStep, untagStep, kernel_untag_untag]
  | some rp =>
    have hchecks : ipcRecvChecks k.untag rp.caller rp.replyPort (some rp.outReply)
        = ((ipcRecvChecks k rp.caller rp.replyPort (some rp.outReply)).1.untag,
          (ipcRecvChecks k rp.caller rp.replyPort (some rp.outReply)).2) :=
      blind_untag (blind_recvChecks blind_gate rp.caller rp.replyPort (some rp.outReply)) k
    rw [afterSend, afterSend, hchecks]
    split_ifs
    · rw [untagStep, untagStep, kernel_untag_untag]
    · exact performConsume_untag _ caller .subject rp.replyPort rp.caller

/-- A send after one turn of its loop in a kernel with the given ports. -/
def afterStageTurn (ports : Ports) (caller : Option (Fin 16)) (via : Via) (target : BitVec 32)
    (outbound : Msg) (reply : Option Reply) (k : Kernel) :
    Option (IpcResult × Unit) → Kernel × List Event
  | none => (k.suspend caller (.stage via target outbound reply), [])
  | some (r, _) =>
    if r ≠ .ok then (k, [.returned caller r])
    else ((afterSend k caller reply).1,
      slotEvents ports target (fun i => .sent i via outbound) ++ (afterSend k caller reply).2)

theorem perform_stage (k : Kernel) (caller : Option (Fin 16)) (via : Via) (target : BitVec 32)
    (outbound : Msg) (reply : Option Reply) : perform k caller (.stage via target outbound reply)
      = afterStageTurn k.ports caller via target outbound reply (stageTurn target outbound k).1
          (stageTurn target outbound k).2 := by
  rw [perform]
  cases stageTurn target outbound k with
  | mk _ out =>
    cases out with
    | none => rfl
    | some =>
      dsimp only [afterStageTurn]
      split_ifs
      · rfl
      · cases reply with
        | none => rfl
        | some =>
          dsimp only [afterSend]
          split_ifs <;> rfl

theorem slotEvents_untag (p : Ports) (h : BitVec 32) (via : Via) (env : Msg) :
    (slotEvents p h (fun i => .sent i via env)).map Event.untag
      = slotEvents p h (fun i => .sent i .subject env) := by
  rw [slotEvents, slotEvents]
  cases resolve p h <;> rfl

/-- **A CALL PAST ITS CHECKS** does the same from either entry point. -/
theorem perform_untag (k : Kernel) (caller : Option (Fin 16)) (p : Pending) :
    untagStep (perform k.untag caller p.untag) = untagStep (perform k caller p) := by
  cases p with
  | consume via selfPort receiver => exact performConsume_untag k caller via selfPort receiver
  | stage via target outbound reply =>
    have hturn : stageTurn target outbound k.untag
        = ((stageTurn target outbound k).1.untag, (stageTurn target outbound k).2) :=
      blind_untag (blind_blockingTurn _ target) k
    have hports : k.untag.ports = k.ports := rfl
    rw [Pending.untag, perform_stage, perform_stage, hturn, hports]
    cases stageTurn target outbound k with
    | mk k' out =>
      cases out with
      | none =>
        show (((k'.untag.suspend caller (.stage .subject target outbound reply)).untag, []) :
            Kernel × List Event)
          = ((k'.suspend caller (.stage via target outbound reply)).untag, [])
        rw [suspend_untag, suspend_untag, kernel_untag_untag]
        rfl
      | some =>
        dsimp only [afterStageTurn]
        split_ifs
        · rw [untagStep, untagStep, kernel_untag_untag]
        · obtain ⟨hkernel, hevents⟩ := Prod.mk.inj (afterSend_untag k' caller reply)
          rw [untagStep, untagStep, hkernel, List.map_append, List.map_append, hevents,
            slotEvents_untag, slotEvents_untag]

theorem execTurn_untag (k : Kernel) (ctxOk : Bool) :
    untagStep (execTurn k.untag ctxOk) = untagStep (execTurn k ctxOk) := by
  have htasks : k.untag.tasks = k.tasks := rfl
  rw [execTurn, execTurn, htasks]
  cases dispatch k.tasks ctxOk with
  | mk t turn =>
    cases turn with
    | drained | skipped =>
      exact untagStep_of_blind (f := fun k => ({ k with tasks := t }, _)) (fun _ _ => rfl) k
    | violated i reason =>
      refine untagStep_of_blind (f := fun k => if k.panicHook then
            ({ k with
              tasks := forceExit t i
              panics := k.panics ++ [((t.entries i).pid, reason)] }, [])
          else
            ({ k with
              tasks := t
              stderr := k.stderr ++ [panicLine (t.entries i).pid reason]
              halted := true }, [])) (fun k calls => ?_) k
      dsimp only
      split <;> rfl
    | runs i =>
      have hcall : k.untag.calls i = (k.calls i).map Pending.untag := rfl
      dsimp only
      rw [hcall]
      cases hp : k.calls i with
      | none =>
        exact untagStep_of_blind (f := fun k => ({ k with tasks := t }, _)) (fun _ _ => rfl) k
      | some p =>
        have hresume : ({ k.untag with
              tasks := t, calls := update k.untag.calls i none } : Kernel)
            = Kernel.untag { k with
                tasks := t, calls := update k.calls i none } := by
          show _ = { k with
            tasks := t, calls := untagCalls (update k.calls i none) }
          rw [untagCalls_update]
          rfl
        rw [hresume]
        exact perform_untag _ (some i) p

theorem execCall_untag (k : Kernel) (c : Call) :
    untagStep (execCall k.untag c) = untagStep (execCall k c) := by
  have henter : enter k.untag c = ((enter k c).1.untag, (enter k c).2) :=
    blind_untag (blind_enter c) k
  have htasks : k.untag.tasks = k.tasks := rfl
  rw [execCall, execCall, henter, htasks]
  cases enter k c with
  | mk k' r =>
    cases r with
    | error => rw [untagStep, untagStep, kernel_untag_untag]
    | ok p =>
      rw [← perform_untag k' k.tasks.current p, ← perform_untag k'.untag k.tasks.current p,
        kernel_untag_untag]

/-- **NO ACTION** depends on the entry points of the blocked calls. -/
theorem exec_untag (k : Kernel) (a : Action) :
    untagStep (exec k.untag a) = untagStep (exec k a) := by
  have hen : enabled k.untag a = enabled k a := rfl
  rw [exec, exec, hen]
  cases enabled k a with
  | false =>
    show untagStep (k.untag, []) = untagStep (k, [])
    rw [untagStep, untagStep, kernel_untag_untag]
  | true =>
    have hblind : Blind (fun k => execEnabled k a) →
        untagStep (execEnabled k.untag a) = untagStep (execEnabled k a) :=
      fun hf => untagStep_of_blind hf k
    cases a with
    | ipc c => exact execCall_untag k c
    | turn ctxOk => exact execTurn_untag k ctxOk
    | _ => exact hblind (fun _ _ => rfl)

variable {k : Kernel} {h port : BitVec 32} {subject cap : Nat}

/-! ## The checks of the two entry points -/

/-- The handle is live, belongs to the subject and is for the capability. -/
def LiveFor (t : CapHandle.Table) (h : BitVec 32) (subject cap : Nat) : Prop :=
  ∃ i, CapHandle.resolve t h = some i ∧ (t i).ownerSubject = subject ∧ (t i).capId = cap

/-- The subject has a handle and the capability itself for what the port asks. -/
def Cleared (k : Kernel) (h : BitVec 32) (subject : Nat) (asked : Except IpcResult Nat) : Prop :=
  ∀ cap, asked = .ok cap →
    LiveFor k.handles h subject cap ∧ capTableCheck k.caps.bits subject cap = .ok

theorem owner_of_liveFor (hl : LiveFor t h subject cap) : capHandleOwner t h = subject := by
  obtain ⟨_, hi, ho, -⟩ := hl
  rw [capHandleOwner_eq, hi]
  exact ho

theorem gate_of_liveFor (hw : Wf t) (hl : LiveFor t h subject cap) :
    capGateCheckHandleResult t h cap = .ok := by
  obtain ⟨i, hi, -, hc⟩ := hl
  obtain ⟨-, -, hlive, -⟩ := (CapHandle.resolve_eq_some_iff t h i).mp hi
  have hvalid := (hw.valid i hlive).2
  have hgate := (CapHandle.capGateCheckHandle_iff t h cap).mpr ⟨i, hi, hc ▸ hvalid, hc⟩
  rwa [capGateCheckHandle, decide_eq_true_eq] at hgate

/-- Both gates pass, with the same audit event. -/
theorem gates_agree (hw : Wf k.handles) (hl : LiveFor k.handles h subject cap)
    (hcap : capTableCheck k.caps.bits subject cap = .ok) :
    capIpcHandleGate k h subject cap = ((k.capCheck subject cap).1, .ok)
      ∧ capIpcGate k subject cap = ((k.capCheck subject cap).1, .ok) := by
  constructor
  · exact if_neg (not_not.mpr (gate_of_liveFor hw hl))
  · exact if_neg (not_not.mpr hcap)

/-- **SEND**: the checks agree on the envelope, the kernel and every refusal. -/
theorem sendH_checks (hw : Wf k.handles) (hs : subject ≠ 0)
    (hclear : Cleared k h subject (ipcPortSendCap k.ports port)) (msg : Option MsgPtr) :
    ipcSendHChecks k h port msg = ipcSendChecks k subject port msg := by
  cases msg with
  | none => rfl
  | some =>
    rw [ipcSendHChecks, ipcSendChecks]
    split_ifs
    · rfl
    · cases hport : ipcPortSendCap k.ports port with
      | error => rfl
      | ok required =>
        obtain ⟨hl, hcap⟩ := hclear required hport
        obtain ⟨hgate, hgate'⟩ := gates_agree hw hl hcap
        dsimp only
        -- subject 0 is asked for before the bounds here and after them there
        rw [owner_of_liveFor hl, capIpcSendGate, hgate, hgate']
        simp only [if_neg hs]

/-- **RECEIVE**: the checks agree on the kernel and every refusal. -/
theorem recvH_checks (hw : Wf k.handles)
    (hclear : Cleared k h subject (ipcPortRecvCap k.ports port)) (outMsg : Option (BitVec 64)) :
    ipcRecvHChecks k h port outMsg = ipcRecvChecks k subject port outMsg
      ∧ ((ipcRecvChecks k subject port outMsg).2 = .ok → capHandleOwner k.handles h = subject) := by
  cases outMsg with
  | none => exact ⟨rfl, fun hok => absurd hok (by simp [ipcRecvChecks, recvChecks])⟩
  | some =>
    cases hi : resolve k.ports port with
    | none =>
      have hown : ipcPortOwner k.ports port = .error .errInvalidPort := by
        rw [ipcPortOwner, portField, hi]
      rw [ipcRecvHChecks, ipcRecvChecks, recvChecks, recvChecks, hown]
      exact ⟨rfl, fun hok => absurd hok (by simp)⟩
    | some i =>
      have hrecv : ipcPortRecvCap k.ports port = .ok (k.ports i).recvCap := by
        rw [ipcPortRecvCap, portField, hi]
      obtain ⟨hl, hcap⟩ := hclear (k.ports i).recvCap hrecv
      obtain ⟨hgate, hgate'⟩ := gates_agree hw hl hcap
      have howner := owner_of_liveFor hl
      refine ⟨?_, fun _ => howner⟩
      rw [ipcRecvHChecks, ipcRecvChecks, recvChecks, recvChecks, howner, hrecv, capIpcRecvGate]
      dsimp only
      rw [hgate, hgate']

/-- Two calls past checks that agree. -/
theorem execCall_alike (hk : (enter k c).1 = (enter k c').1)
    (hr : (enter k c).2.map Pending.untag = (enter k c').2.map Pending.untag) :
    untagStep (execCall k c) = untagStep (execCall k c') := by
  rw [execCall, execCall]
  generalize enter k c = x at hk hr
  generalize enter k c' = y at hk hr
  obtain ⟨k1, r⟩ := x
  obtain ⟨k2, r'⟩ := y
  obtain rfl : k1 = k2 := hk
  cases r <;> cases r' <;> simp only [Except.map, reduceCtorEq, Except.error.injEq,
    Except.ok.injEq] at hr
  · rw [hr]
  · dsimp only
    rw [← perform_untag, hr, perform_untag]

theorem sendH_alike (hw : Wf k.handles) (hs : subject ≠ 0)
    (hclear : Cleared k h subject (ipcPortSendCap k.ports port)) (msg : Option MsgPtr) :
    untagStep (execCall k (.sendH h port msg))
      = untagStep (execCall k (.send subject port msg)) := by
  have hchecks := sendH_checks hw hs hclear msg
  refine execCall_alike ?_ ?_
  · show (ipcSendHChecks k h port msg).1 = (ipcSendChecks k subject port msg).1
    rw [hchecks]
  · show ((ipcSendHChecks k h port msg).2.map _).map Pending.untag
      = ((ipcSendChecks k subject port msg).2.map _).map Pending.untag
    rw [hchecks]
    cases (ipcSendChecks k subject port msg).2 <;> rfl

theorem recvH_alike (hw : Wf k.handles)
    (hclear : Cleared k h subject (ipcPortRecvCap k.ports port)) (outMsg : Option (BitVec 64)) :
    untagStep (execCall k (.recvH h port outMsg))
      = untagStep (execCall k (.recv subject port outMsg)) := by
  obtain ⟨hchecks, howner⟩ := recvH_checks hw hclear outMsg
  refine execCall_alike ?_ ?_
  · show (ipcRecvHChecks k h port outMsg).1 = (ipcRecvChecks k subject port outMsg).1
    rw [hchecks]
  · show (goOn (.consume .handle port (capHandleOwner k.handles h))
        (ipcRecvHChecks k h port outMsg).2).map Pending.untag
      = (goOn (.consume .subject port subject) (ipcRecvChecks k subject port outMsg).2).map
        Pending.untag
    rw [hchecks, goOn, goOn]
    split_ifs with hno
    · rfl
    · rw [howner (not_not.mp hno)]
      rfl

/-! ## The handle table of a reachable kernel -/

theorem does_handles (h : Does caller k p es k') : k'.handles = k.handles := by
  induction h with
  | sendsRefused _ _ hq => exact (quiet_sameTables hq).2.2.2
  | sendsOn _ _ hq _ _ _ _ ih => exact ih.trans (quiet_sameTables hq).2.2.2
  | _ => rfl

/-- An action leaves the handles alone or is a call on them. -/
theorem handles_step (k : Kernel) (a : Action) :
    (step k a).handles = k.handles ∨ ∃ op, (step k a).handles = CapHandle.step k.handles op := by
  cases hen : enabled k a with
  | false =>
    rw [step, exec_of_disabled hen]
    exact Or.inl rfl
  | true =>
    rw [step, exec_of_enabled hen]
    cases a with
    | ipc c =>
      left
      obtain ⟨_, _, hq, hc⟩ | ⟨_, _, hq, -, hd⟩ := execCall_cases k c
      · show (execCall k c).1.handles = k.handles
        rw [hc]
        exact (quiet_sameTables hq).2.2.2
      · exact (does_handles hd).trans (quiet_sameTables hq).2.2.2
    | turn ctxOk =>
      left
      obtain ⟨⟨-, -, -, hh⟩, -⟩ | ⟨_, i, _, -, -, hd⟩ := execTurn_cases k ctxOk
      · exact hh
      · have hsame := does_handles hd
        exact hsame
    | handle op => exact Or.inr ⟨op, rfl⟩
    | processDestroy pid =>
      have hd : (execEnabled k (.processDestroy pid)).1.handles
          = (processDestroy k.tasks.procs k.handles pid).2.1 := rfl
      rw [hd, processDestroy]
      cases Process.resolve k.tasks.procs pid with
      | none => exact Or.inl rfl
      | some i => exact Or.inr ⟨.revokeSubject (k.tasks.procs i).subject, rfl⟩
    | _ => exact Or.inl rfl

/-- The kernel after a list of actions from boot with an empty handle table. -/
def reached (caps : Caps) (hook : Bool) (as : List Action) : Kernel :=
  run step (boot caps capHandleTableReset hook) as

theorem wf_handles (caps : Caps) (hook : Bool) (as : List Action) :
    Wf (reached caps hook as).handles := by
  refine run_inv_all (I := fun k => Wf k.handles) (fun k a hw => ?_) as
    (boot caps capHandleTableReset hook) wf_reset
  obtain he | ⟨op, he⟩ := handles_step k a
  · exact he ▸ hw
  · exact he ▸ wf_step hw op

/-! ## Refinement -/

/-- Two ways to go on that lead to the same kernels and reports but for the entry points. -/
def SameCourse (k : Kernel) (as bs : List Action) : Prop :=
  (run step k as).untag = (run step k bs).untag
    ∧ (emitted step report k as).map Event.untag = (emitted step report k bs).map Event.untag

theorem sameCourse_of_alike (h : untagStep (execCall k c) = untagStep (execCall k c'))
    (more : List Action) : SameCourse k (.ipc c :: more) (.ipc c' :: more) := by
  have hexec : untagStep (exec k (.ipc c)) = untagStep (exec k (.ipc c')) := by
    cases hen : enabled k (.ipc c) with
    | false => rw [exec_of_disabled hen, exec_of_disabled (k := k) (a := .ipc c') hen]
    | true =>
      rw [exec_of_enabled hen, exec_of_enabled (k := k) (a := .ipc c') hen]
      exact h
  obtain ⟨hkernel, hevents⟩ := Prod.mk.inj hexec
  have hstep : ∀ k k' a, k.untag = k'.untag → (step k a).untag = (step k' a).untag
      ∧ (report k a).map Event.untag = (report k' a).map Event.untag :=
    fun k k' a hk => Prod.mk.inj ((exec_untag k a).symm.trans (hk ▸ exec_untag k' a))
  have hrest := run_alike hstep more (step k (.ipc c)) (step k (.ipc c')) hkernel
  refine ⟨hrest.1, ?_⟩
  rw [emitted_cons, emitted_cons, List.map_append, List.map_append, hrest.2]
  exact congrArg (· ++ _) hevents

/-- **HANDLE CALLS REFINE SUBJECT CALLS** in every reachable kernel: with a live handle and the
    capability for what the port asks, the two calls and all that follows have the same course. -/
theorem handle_ipc_refines_subject_ipc (caps : Caps) (hook : Bool) (as : List Action)
    (subject : Nat) (h port : BitVec 32) (hs : subject ≠ 0) :
    let k := reached caps hook as
    (∀ msg more, Cleared k h subject (ipcPortSendCap k.ports port) →
        SameCourse k (.ipc (.sendH h port msg) :: more) (.ipc (.send subject port msg) :: more))
      ∧ ∀ outMsg more, Cleared k h subject (ipcPortRecvCap k.ports port) →
        SameCourse k (.ipc (.recvH h port outMsg) :: more)
          (.ipc (.recv subject port outMsg) :: more) := by
  intro k
  have hw := wf_handles caps hook as
  refine ⟨fun msg more hclear => ?_, fun outMsg more hclear => ?_⟩
  · exact sameCourse_of_alike (sendH_alike hw hs hclear msg) more
  · exact sameCourse_of_alike (recvH_alike hw hclear outMsg) more

/-- A port of subject 3, and subject 1 with the capability and a handle to send to it. -/
def handedOut : List Action :=
  [.portCreate 3 capIpcSend capIpcRecv, .capGrant 1 capIpcSend, .handle (.grant 1 capIpcSend)]

theorem cleared_handedOut : Cleared (reached capResetForTests false handedOut) 0x40010000 1
      (ipcPortSendCap (reached capResetForTests false handedOut).ports 0x00010000) := by
  intro _ hcap
  have hsend : ipcPortSendCap (reached capResetForTests false handedOut).ports 0x00010000
      = .ok capIpcSend := by
    rfl
  obtain rfl := Except.ok.inj (hsend.symm.trans hcap)
  exact ⟨⟨0, by decide, by decide, by decide⟩, by decide⟩

/-- The sender's two calls, and the owner's receive after them. -/
theorem handle_send_of_handedOut : SameCourse (reached capResetForTests false handedOut)
      [.ipc (.sendH 0x40010000 0x00010000 (some ⟨0x1000, zeroMsg⟩)), recvByOwner]
      [.ipc (.send 1 0x00010000 (some ⟨0x1000, zeroMsg⟩)), recvByOwner] :=
  (handle_ipc_refines_subject_ipc capResetForTests false handedOut 1 0x40010000 0x00010000
    (by decide)).1 (some ⟨0x1000, zeroMsg⟩) [recvByOwner] cleared_handedOut

end Ipc
