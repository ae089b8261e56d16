import SecureOS.BrokerSvcModel
import SecureOS.CapBrokerShareProofs
import SecureOS.CapHandleStaleProofs

/-! # Minted handles of the broker service

What an approval mints and what deleting the owner takes back. -/

namespace BrokerSvc

open Capability CapTable MachineRun CapHandle Process CapBroker

/-- The table call `process_destroy` makes. -/
def destroyOps (p : Procs) (pid : BitVec 32) : List HandleOp :=
  match resolve p pid with
  | none => []
  | some i => [.revokeSubject (p i).subject]

/-- The table calls a call of the service makes, in order. -/
def handleOps (s : Svc) : SvcOp → List HandleOp
  | .handle op => [op]
  | .broker _ => []
  | .approveH approver shareId recipient cap ownerHandle =>
    if (capBrokerApprove s.broker approver shareId).2 = .ok then
      [.grantChild recipient cap ownerHandle]
    else []
  | .deleteOwner actor owner ownerHandle pid =>
    if (capBrokerDeleteOwnerCheck actor owner).1 then
      .revokeSubtree ownerHandle :: if pid = pidInvalid then [] else destroyOps s.procs pid
    else []
  | .processCreate _ _ => []
  | .processDestroy pid => destroyOps s.procs pid

theorem processDestroy_handles (p : Procs) (t : CapHandle.Table) (pid : BitVec 32) :
    (processDestroy p t pid).2.1 = run CapHandle.step t (destroyOps p pid) := by
  rw [processDestroy, destroyOps]
  cases resolve p pid <;> rfl

theorem clearShareRows_frame (actor owner : Nat) (rows : List (Fin 8)) (acc : Svc × Nat) :
    let s := (rows.foldl (clearShareRow actor owner) acc).1
    s.handles = acc.1.handles ∧ s.procs = acc.1.procs ∧ s.sessions = acc.1.sessions
      ∧ s.broker.shares = acc.1.broker.shares ∧ s.broker.caps.bits = acc.1.broker.caps.bits := by
  induction rows generalizing acc with
  | nil => exact ⟨rfl, rfl, rfl, rfl, rfl⟩
  | cons _ _ ih =>
    simp only [List.foldl_cons, ih]
    rw [clearShareRow]
    split <;> exact ⟨rfl, rfl, rfl, rfl, rfl⟩

theorem drainSessions_frame (actor owner rounds : Nat) (acc : Svc × Nat) :
    let s := (drainSessions actor owner rounds acc).1
    s.handles = acc.1.handles ∧ s.procs = acc.1.procs ∧ s.shareRows = acc.1.shareRows
      ∧ s.broker.shares = acc.1.broker.shares ∧ s.broker.caps.bits = acc.1.broker.caps.bits := by
  induction rounds generalizing acc with
  | zero => exact ⟨rfl, rfl, rfl, rfl, rfl⟩
  | succ _ ih =>
    rw [drainSessions]
    cases SessionManager.sessionManagerFirstSessionForSubject acc.1.sessions owner with
    | none => exact ⟨rfl, rfl, rfl, rfl, rfl⟩
    | some => exact ih _

theorem destroyOwnerProcess_handles (s : Svc) (pid : BitVec 32) :
    (destroyOwnerProcess s pid).handles
      = run CapHandle.step s.handles (if pid = pidInvalid then [] else destroyOps s.procs pid) := by
  rw [destroyOwnerProcess]
  split
  · rfl
  · exact processDestroy_handles s.procs s.handles pid

/-- A deletion is allowed exactly when the check passes. -/
theorem deleteOwner_ok_iff (s : Svc) (actor owner : Nat) (h pid : BitVec 32) :
    (brokerSvcDeleteOwner s actor owner h pid).2.1 = .ok
      ↔ (capBrokerDeleteOwnerCheck actor owner).1 := by
  cases hc : (capBrokerDeleteOwnerCheck actor owner).1 <;> simp [brokerSvcDeleteOwner, hc]

/-- The cascade acts on the handle table by the subtree revocation and the owner's process. -/
theorem deleteOwner_handles (s : Svc) (actor owner : Nat) (h pid : BitVec 32) :
    (brokerSvcDeleteOwner s actor owner h pid).1.handles
      = run CapHandle.step s.handles (handleOps s (.deleteOwner actor owner h pid)) := by
  rw [brokerSvcDeleteOwner, handleOps]
  cases hc : (capBrokerDeleteOwnerCheck actor owner).1 with
  | false => rfl
  | true =>
    show (destroyOwnerProcess _ pid).handles = _
    simp only [destroyOwnerProcess_handles, drainSessions_frame, clearShareRows_frame]
    rfl

/-- An approval stops at the broker, stops at the handle table, or records the handle it minted. -/
theorem approveH_cases (s : Svc) (approver shareId recipient cap : Nat) (h : BitVec 32) :
    let a := capBrokerApprove s.broker approver shareId
    let g := capHandleGrantChild s.handles recipient cap h
    let r := brokerSvcApproveH s approver shareId recipient cap h
    (a.2 ≠ .ok ∧ r = ({ s with broker := a.1 }, a.2, handleNull))
      ∨ (a.2 = .ok ∧ g.2 = handleNull
        ∧ r = ({ s with broker := a.1, handles := g.1 }, .errInvalidCapability, handleNull))
      ∨ (a.2 = .ok ∧ g.2 ≠ handleNull
        ∧ r = ({ s with
                broker := a.1
                handles := g.1
                shareRows := recordShare s.shareRows ⟨shareId, approver, recipient, g.2⟩ },
              .ok, g.2)) := by
  dsimp only
  by_cases hr : (capBrokerApprove s.broker approver shareId).2 = .ok
  · by_cases hg : (capHandleGrantChild s.handles recipient cap h).2 = handleNull
    · exact Or.inr (Or.inl ⟨hr, hg, by simp [brokerSvcApproveH, hr, hg]⟩)
    · exact Or.inr (Or.inr ⟨hr, hg, by simp [brokerSvcApproveH, hr, hg]⟩)
  · exact Or.inl ⟨hr, by simp [brokerSvcApproveH, hr]⟩

/-- **THE SERVICE ON THE TABLE**: a call acts on the handle table by its table calls. -/
theorem step_handles (s : Svc) (op : SvcOp) :
    (step s op).handles = run CapHandle.step s.handles (handleOps s op) := by
  cases op with
  | approveH approver shareId recipient cap h =>
    show (brokerSvcApproveH s approver shareId recipient cap h).1.handles = _
    rw [handleOps]
    obtain ⟨hr, he⟩ | ⟨hr, -, he⟩ | ⟨hr, -, he⟩ := approveH_cases s approver shareId recipient cap h
    all_goals
      rw [he]
      simp [hr, CapHandle.step]
  | deleteOwner actor owner h pid => exact deleteOwner_handles s actor owner h pid
  | processDestroy pid => exact processDestroy_handles s.procs s.handles pid
  | _ => rfl

theorem wf_handles_run (k : Caps) (sessions : SessionManager.Sessions) (ops : List SvcOp) :
    Wf (run step (svcReset k sessions) ops).handles :=
  run_inv_all (I := fun s : Svc => Wf s.handles)
    (fun s op h => step_handles s op ▸ wf_run h (handleOps s op)) ops _
    wf_reset

/-- The handle is live for exactly this subject and this capability. -/
def HandleFor (t : CapHandle.Table) (v : BitVec 32) (subject cap : Nat) : Prop :=
  capHandleOwner t v = subject
    ∧ ∀ c, capGateCheckHandle t v c ↔ c = cap

variable {t : CapHandle.Table} {v h : BitVec 32} {op : HandleOp}

theorem handleFor_unique (h : HandleFor t v s c) : HandleFor t v s' c' ↔ s = s' ∧ c = c' := by
  constructor
  · intro h'
    exact ⟨h.1.symm.trans h'.1, (h'.2 c).mp ((h.2 c).mpr rfl)⟩
  · rintro ⟨rfl, rfl⟩
    exact h

/-- **WHAT IS MINTED**: in every reachable state an approval that succeeds is one of a requested
    share by its owner; its handle is for the pair the caller passed, the bit goes to the pair
    recorded.  One that fails leaves the handle table alone. -/
theorem approveH_mints (k : Caps) (sessions : SessionManager.Sessions) (ops : List SvcOp)
    (approver shareId recipient cap : Nat) (h : BitVec 32) :
    let s := run step (svcReset k sessions) ops
    let r := brokerSvcApproveH s approver shareId recipient cap h
    (r.2.1 = .ok → ∃ i, approves s.broker approver shareId i
        ∧ HandleFor r.1.handles r.2.2 recipient cap
        ∧ (HandleFor r.1.handles r.2.2 (s.broker.shares i).recipientSubjectId
              (s.broker.shares i).capabilityId
            ↔ recipient = (s.broker.shares i).recipientSubjectId
              ∧ cap = (s.broker.shares i).capabilityId)
        ∧ ∀ subject c, capTableCheck r.1.broker.caps.bits subject c = .ok
            ↔ (subject = (s.broker.shares i).recipientSubjectId
                ∧ c = (s.broker.shares i).capabilityId)
              ∨ capTableCheck s.broker.caps.bits subject c = .ok)
      ∧ (r.2.1 ≠ .ok → r.1.handles = s.handles ∧ r.2.2 = handleNull) := by
  intro s r
  have hwf : Wf s.handles := wf_handles_run k sessions ops
  obtain ⟨hr, he⟩ | ⟨hr, hg, he⟩ | ⟨hr, hg, he⟩ := approveH_cases s approver shareId recipient cap h
  · rw [show r = _ from he]
    exact ⟨fun hok => absurd hok hr, fun _ => ⟨rfl, rfl⟩⟩
  · rw [show r = _ from he]
    exact ⟨fun hok => (nomatch hok), fun _ => ⟨(grantChild_grants ..).null hg, rfl⟩⟩
  · rw [show r = _ from he]
    refine ⟨fun _ => ?_, fun hno => absurd rfl hno⟩
    have hends : Ends s.broker (.approve approver shareId)
        (capBrokerApprove s.broker approver shareId).1 _ :=
      ends_of_step s.broker (.approve approver shareId)
    rw [result, hr] at hends
    cases hends with
    | refused hno => exact absurd rfl hno
    | @approved _ _ i _ hi _ hbits =>
      obtain ⟨_, hj, hv, -, -⟩ := (grantChild_grants ..).row hg
      obtain ⟨hgate, howner⟩ := fromRow_answers
        (show Wf (capHandleGrantChild s.handles recipient cap h).1 from
          wf_step hwf (.grantChild recipient cap h)) hj
      rw [← hv] at hgate howner
      refine ⟨i, hi, ⟨howner, hgate⟩, handleFor_unique ⟨howner, hgate⟩, fun subject c => ?_⟩
      rw [hbits, capTableCheck_grant]
      simp [hi.2.2.2]

/-- Subject 0 holds the read capability. -/
def ownerHolds : Caps := ⟨(capTableGrant capTableReset 0 capFsRead).1, auditReset⟩

/-- No sessions. -/
def noSessions : SessionManager.Sessions := ⟨fun _ => ⟨false, 0⟩, 0⟩

/-- Subject 0 gets a broker handle and asks to share its read capability with subject 1. -/
def requested : List SvcOp :=
  [.handle (.grant 0 capIpcSend), .broker (.request 0 1 capFsRead (some ['a']))]

/-- The broker handle of subject 0. -/
def ownerHandle : BitVec 32 := 0x40010000#32

/-- The handle minted for subject 1. -/
def minted : BitVec 32 := 0x40010001#32

/-- The service after these two calls. -/
def afterRequest : Svc := run step (svcReset ownerHolds noSessions) requested

/-- The request names subject 1 and the read capability; the approval passes subject 2 and the write
    capability and mints for those. -/
theorem approveH_mints_other :
    let r := brokerSvcApproveH afterRequest 0 1 2 capFsWrite ownerHandle
    (afterRequest.broker.shares 0).recipientSubjectId = 1
      ∧ (afterRequest.broker.shares 0).capabilityId = capFsRead
      ∧ r.2 = (.ok, minted)
      ∧ capHandleOwner r.1.handles minted = 2
      ∧ capGateCheckHandle r.1.handles minted capFsWrite = true := by
  decide +kernel

/-- The call issues the value again: it writes a fresh row at its slot with its generation bits. -/
def Reissues (v : BitVec 32) (t : CapHandle.Table) (op : HandleOp) : Prop :=
  ∃ i a, fresh t op = some (i, a) ∧ (capHandleSlot v).toNat = i.val
    ∧ ((t i).generation + 1) &&& genMask
        = (capHandleGeneration v).setWidth 32

/-- No table call of this call issues the value again. -/
def KeepsRetired (v : BitVec 32) (s : Svc) (op : SvcOp) : Prop :=
  Along CapHandle.step (fun t op => ¬ Reissues v t op) s.handles (handleOps s op)

/-- A value accepted after a call that does not re-issue it was accepted before, at the same row. -/
theorem resolve_step_kept (hk : ¬ Reissues v t op)
    (h : CapHandle.resolve (CapHandle.step t op) v = some i) :
    CapHandle.resolve t v = some i ∧ CapHandle.step t op i = t i := by
  obtain ⟨htag, hslot, hlive, hstale⟩ := (CapHandle.resolve_eq_some_iff _ v i).mp h
  rcases CapHandle.step_row_cases t op i with he | ⟨-, -, -, he⟩ | ⟨-, a, hf, he⟩
  · rw [he] at hlive hstale
    exact ⟨(CapHandle.resolve_eq_some_iff t v i).mpr ⟨htag, hslot, hlive, hstale⟩, he⟩
  · rw [he, live_revoke] at hlive
    exact nomatch hlive
  · -- a fresh row that accepts the value is a re-issue of it
    rw [he] at hstale
    refine absurd ⟨i, a, hf, hslot, ?_⟩ hk
    rw [Row.stale, decide_eq_false_iff_not, not_not] at hstale
    exact hstale

/-- Only a grant issues a value. -/
theorem not_reissues (ha : op.grantArgs = none) : ¬ Reissues v t op := by
  rintro ⟨_, _, hf, -⟩
  exact nomatch hf.symm.trans (fresh_eq_none_of_grantArgs ha)

/-- If accepted at all, the value's row has this parent. -/
def ParentIs (v h : BitVec 32) (t : CapHandle.Table) : Prop :=
  ∀ i, CapHandle.resolve t v = some i → (t i).parentHandle = h

theorem parentIs_step (hp : ParentIs v h t) (hk : ¬ Reissues v t op) :
    ParentIs v h (CapHandle.step t op) := by
  intro i hi
  obtain ⟨hbefore, hrow⟩ := resolve_step_kept hk hi
  rw [hrow]
  exact hp i hbefore

theorem retired_step (hr : CapHandle.resolve t v = none) (hk : ¬ Reissues v t op) :
    CapHandle.resolve (CapHandle.step t op) v = none := by
  refine Option.eq_none_iff_forall_ne_some.mpr ?_
  intro _ hi
  exact nomatch hr.symm.trans (resolve_step_kept hk hi).1

/-- What every table call preserves, the calls of the service preserve. -/
theorem handles_run_inv {I : CapHandle.Table → Prop}
    (hI : ∀ t op, I t → ¬ Reissues v t op → I (CapHandle.step t op)) (ops : List SvcOp) (s : Svc)
    (h : I s.handles) (hk : Along step (KeepsRetired v) s ops) : I (run step s ops).handles := by
  refine run_inv (I := fun s : Svc => I s.handles) (fun s op hs hop => ?_) ops s h hk
  rw [step_handles]
  exact run_inv (I := I) hI (handleOps s op) s.handles hs hop

/-- Revoking the subtree of an accepted handle refuses the values whose row has it as parent. -/
theorem subtree_retires (hp : ParentIs v h t) (hacc : CapHandle.Accepted t h) :
    CapHandle.resolve (CapHandle.step t (.revokeSubtree h)) v = none := by
  obtain ⟨root, hroot⟩ := (CapHandle.accepted_iff_resolve t h).mp hacc
  have hspec := CapHandle.capHandleRevokeSubtree_spec t h
  simp only [hroot] at hspec
  refine Option.eq_none_iff_forall_ne_some.mpr ?_
  intro i hi
  obtain ⟨hbefore, hrow⟩ := resolve_step_kept (not_reissues rfl) hi
  obtain ⟨-, -, hlive, -⟩ := (CapHandle.resolve_eq_some_iff t v i).mp hbefore
  obtain ⟨-, hslot, -, -⟩ := (CapHandle.resolve_eq_some_iff t h root).mp hroot
  -- the row's parent link is the root, so the cascade visits the row
  have hne : h ≠ handleNull := by
    rintro rfl
    cases (resolve_null t).symm.trans hroot
  have hpar : parentSlot t i = some root := by
    rw [parentSlot, hp i hbefore, if_neg hne, dif_pos (hslot ▸ root.isLt)]
    exact congrArg some (Fin.ext hslot)
  have hvis : capHandleVisitedGet (subtreeVisited t root) i :=
    (visited_iff t root i).mpr (Relation.ReflTransGen.single hpar)
  have hdead : (CapHandle.step t (.revokeSubtree h) i).live = false := by
    show ((capHandleRevokeSubtree t h).1 i).live = false
    simp [hspec, revokeWhere, hvis, hlive, live_revoke]
  exact Bool.false_ne_true (hdead.symm.trans (hrow ▸ hlive))

/-- A deletion with an accepted owner handle refuses the values minted under it. -/
theorem deleteOwner_retires (hp : ParentIs v h s.handles) (hacc : CapHandle.Accepted s.handles h)
    (hok : (brokerSvcDeleteOwner s actor owner h pid).2.1 = .ok)
    (hk : KeepsRetired v s (.deleteOwner actor owner h pid)) :
    CapHandle.resolve (brokerSvcDeleteOwner s actor owner h pid).1.handles v = none := by
  have hc := (deleteOwner_ok_iff s actor owner h pid).mp hok
  rw [KeepsRetired, handleOps, if_pos hc] at hk
  rw [deleteOwner_handles, handleOps, if_pos hc, run_cons]
  exact run_inv (I := fun t => CapHandle.resolve t v = none)
    (fun _ _ hr hnew => retired_step hr hnew) _ _ (subtree_retires hp hacc) hk.2

/-- **DELETING THE OWNER**: after an approval that mints `v` under the owner's handle `h`, and a
    deletion of the owner with `h` while `h` is accepted, no check of `v` passes unless a grant
    issued `v` again. -/
theorem deleteOwner_denies (k : Caps) (sessions : SessionManager.Sessions)
    (ops between after : List SvcOp) (owner shareId recipient cap actor : Nat)
    (h pid : BitVec 32) :
    let s := run step (svcReset k sessions) ops
    let r := brokerSvcApproveH s owner shareId recipient cap h
    capHandleFindLive s.handles recipient cap = none → r.2.1 = .ok →
      CapHandle.Accepted (run step r.1 between).handles h →
      (brokerSvcDeleteOwner (run step r.1 between) actor owner h pid).2.1 = .ok →
      Along step (KeepsRetired r.2.2) r.1 (between ++ .deleteOwner actor owner h pid :: after) →
      ∀ c, capGateCheckHandle
        (run step r.1 (between ++ .deleteOwner actor owner h pid :: after)).handles r.2.2 c
          = false := by
  intro s r hnew hok hacc hdel hkeep
  have hstart : ParentIs r.2.2 h r.1.handles := by
    obtain ⟨hr, he⟩ | ⟨-, -, he⟩ | ⟨-, hg, he⟩ := approveH_cases s owner shareId recipient cap h
    · rw [show r = _ from he] at hok
      exact absurd hok hr
    · rw [show r = _ from he] at hok
      exact nomatch hok
    · obtain ⟨_, hpar, hres⟩ := (grantChild_grants ..).fresh hnew hg
      rw [show r = _ from he]
      intro _ hj
      obtain rfl := Option.some.inj (hres.symm.trans hj)
      exact hpar
  obtain ⟨hkb, hkd, hka⟩ := (along_append step _ between _ r.1).mp hkeep
  have hpar := handles_run_inv (I := ParentIs r.2.2 h)
    (fun _ _ hp hnew => parentIs_step hp hnew) between r.1 hstart hkb
  have hret := deleteOwner_retires hpar hacc hdel hkd
  have hend := handles_run_inv (I := fun t => CapHandle.resolve t r.2.2 = none)
    (fun _ _ hr hnew => retired_step hr hnew) after _ hret hka
  intro c
  rw [run_append, Bool.eq_false_iff]
  intro hgate
  obtain ⟨_, hi, -⟩ := (capGateCheckHandle_iff _ _ c).mp hgate
  exact nomatch hend.symm.trans hi

/-- The pair that was asked for is approved and the owner deleted: the minted handle fails its
    check. -/
theorem deleteOwner_denies_minted :
    let r := brokerSvcApproveH afterRequest 0 1 1 capFsRead ownerHandle
    capGateCheckHandle (run step r.1 ([] ++ .deleteOwner 0 0 ownerHandle 0 :: [])).handles r.2.2
      capFsRead = false := by
  unfold afterRequest
  exact deleteOwner_denies ownerHolds noSessions requested [] [] 0 1 1 capFsRead 0 ownerHandle 0
    (by decide +kernel) (by decide +kernel)
    (Or.inl ⟨capIpcSend, by decide +kernel⟩) (by decide +kernel)
    ⟨⟨not_reissues rfl, trivial⟩, trivial⟩ capFsRead

/-- The owner's handle is revoked before the deletion: it returns OK and the minted handle still
    passes. -/
theorem deleteOwner_misses_orphan :
    let r := brokerSvcDeleteOwner (run step afterRequest
      [.approveH 0 1 1 capFsRead ownerHandle, .handle (.revoke ownerHandle)]) 0 0 ownerHandle 0
    capHandleFindLive afterRequest.handles 1 capFsRead = none
      ∧ capGateCheckHandle afterRequest.handles ownerHandle capIpcSend = true
      ∧ (brokerSvcApproveH afterRequest 0 1 1 capFsRead ownerHandle).2 = (.ok, minted)
      ∧ r.2 = (.ok, 1)
      ∧ capGateCheckHandle r.1.handles minted capFsRead = true := by
  decide +kernel

end BrokerSvc
