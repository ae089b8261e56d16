import SecureOS.BrokerSvcProofs
import SecureOS.CapBrokerConfineProofs

/-! # What deleting an owner leaves behind

`broker_svc_delete_owner` clears the owner's side-table rows, destroys its sessions round by
round and reports how many of both it dealt with.  It does not look at the broker's shares or at
the capability table.

* `deleteOwner_shares` — the owner's shares end with it exactly when there was nothing to end.
  -/

namespace BrokerSvc

open Capability CapTable MachineRun SessionManager Function List CapHandle CapBroker Finset

/-! ## The side table -/

/-- The cascade counts and clears this row. -/
def ofOwner (owner : Nat) (row : ShareRow) : Bool :=
  row.childHandle ≠ handleNull ∧ row.ownerSubject = owner

theorem clearShareRow_shareRows (actor owner : Nat) (acc : Svc × Nat) (i : Fin 8) :
    (clearShareRow actor owner acc i).1.shareRows
      = TableScan.rewriteRow (fun _ row => ofOwner owner row) (fun _ => clearedRow)
          acc.1.shareRows i := by
  rw [clearShareRow]
  split_ifs with h <;> simp [TableScan.rewriteRow, ofOwner, h]

/-- The walk clears exactly the owner's rows. -/
theorem clearShareRows_rows (actor owner : Nat) (acc : Svc × Nat) :
    ((List.finRange 8).foldl (clearShareRow actor owner) acc).1.shareRows
      = fun i => if ofOwner owner (acc.1.shareRows i) then clearedRow else acc.1.shareRows i := by
  rw [← TableScan.foldl_rewriteRow (fun _ row => ofOwner owner row) (fun _ => clearedRow)]
  exact (foldl_hom (fun a : Svc × Nat => a.1.shareRows)
    (fun a i => (clearShareRow_shareRows actor owner a i).symm)).symm

/-- Over distinct rows the walk counts the owner's rows. -/
theorem clearShareRows_count_list (actor owner : Nat) :
    ∀ (l : List (Fin 8)), l.Nodup → ∀ acc : Svc × Nat, (l.foldl (clearShareRow actor owner) acc).2
        = acc.2 + l.countP (fun i => ofOwner owner (acc.1.shareRows i)) := by
  intro l
  induction l with
  | nil => intro _ acc; simp
  | cons i l ih =>
    intro hnd acc
    obtain ⟨hi, hl⟩ := nodup_cons.mp hnd
    rw [foldl_cons, ih hl]
    -- the rows still to come are as they were
    have hrest : l.countP (fun j => ofOwner owner ((clearShareRow actor owner acc i).1.shareRows j))
        = l.countP (fun j => ofOwner owner (acc.1.shareRows j)) := by
      refine countP_congr ?_
      intro j hj
      have hji : j ≠ i := fun h => hi (h ▸ hj)
      rw [clearShareRow_shareRows, TableScan.rewriteRow_of_ne _ _ _ hji]
    rw [hrest]
    by_cases h : (acc.1.shareRows i).childHandle ≠ handleNull
        ∧ (acc.1.shareRows i).ownerSubject = owner
    · simp [clearShareRow, ofOwner, h]; omega
    · simp [clearShareRow, ofOwner, h]

/-- The number of rows that went from used to cleared. -/
def rowsCleared (before after : Fin 8 → ShareRow) : Nat :=
  (List.finRange 8).countP (fun i => (before i).childHandle ≠ handleNull
    ∧ (after i).childHandle = handleNull)

/-- The walk reports the number of rows it cleared. -/
theorem clearShareRows_count (actor owner : Nat) (s : Svc) :
    ((List.finRange 8).foldl (clearShareRow actor owner) (s, 0)).2 = rowsCleared s.shareRows
          ((List.finRange 8).foldl (clearShareRow actor owner) (s, 0)).1.shareRows := by
  rw [clearShareRows_count_list actor owner _ (nodup_finRange 8), Nat.zero_add,
    clearShareRows_rows, rowsCleared]
  refine countP_congr fun i _ => ?_
  split_ifs with h
  · have hu : (s.shareRows i).childHandle ≠ handleNull := (of_decide_eq_true h).1
    simp [h, hu, clearedRow]
  · simp [h]

/-! ## The sessions -/

/-- The session is in use by the subject: the test of `session_manager_first_session_for_subject`.
    -/
def usedBy (g : Sessions) (owner : Nat) (i : Fin 8) : Bool :=
  (g.records i).inUse && (g.records i).subjectId == owner

/-- The active session is in use by the subject. -/
def activeOf (g : Sessions) (owner : Nat) : Prop :=
  ∃ i : Fin 8, i.val = g.activeSessionId ∧ usedBy g owner i

/-- The table with every session of the subject taken out of use. -/
def withoutSessions (g : Sessions) (owner : Nat) : Sessions :=
  { g with
    records := fun i =>
      if usedBy g owner i then { g.records i with inUse := false } else g.records i }

/-- The table with one session taken out of use. -/
def outOfUse (g : Sessions) (sid : Fin 8) : Sessions :=
  { g with records := update g.records sid ⟨false, (g.records sid).subjectId⟩ }

variable {g : Sessions} {owner : Nat}

/-- Destroying a session in use that is not the active one takes it out of use. -/
theorem destroy_used (hused : usedBy g owner sid) (hactive : sid.val ≠ g.activeSessionId) :
    sessionManagerDestroy g sid.val = outOfUse g sid := by
  have hin : (g.records sid).inUse := (Bool.and_eq_true_iff.mp hused).1
  simp [sessionManagerDestroy, outOfUse, hin, hactive]

theorem usedBy_outOfUse (g : Sessions) (owner : Nat) (sid i : Fin 8) :
    usedBy (outOfUse g sid) owner i = (decide (i ≠ sid) && usedBy g owner i) := by
  by_cases hi : i = sid
  · subst hi; simp [usedBy, outOfUse]
  · simp [usedBy, outOfUse, hi]

/-- One session taken out of use leaves the same table without the rest. -/
theorem withoutSessions_outOfUse (hused : usedBy g owner sid) :
    withoutSessions (outOfUse g sid) owner = withoutSessions g owner := by
  have hrow : ∀ i, (withoutSessions (outOfUse g sid) owner).records i
      = (withoutSessions g owner).records i := by
    intro i
    simp only [withoutSessions, usedBy_outOfUse]
    by_cases hi : i = sid
    · subst hi; simp [outOfUse, hused]
    · simp [outOfUse, hi]
  exact congrArg (fun r => (⟨r, g.activeSessionId⟩ : Sessions)) (funext hrow)

/-- How many sessions the subject has. -/
def sessionCount (g : Sessions) (owner : Nat) : Nat :=
  (Finset.univ.filter (fun i => usedBy g owner i = true)).card

theorem sessionCount_outOfUse (hused : usedBy g owner sid) :
    sessionCount (outOfUse g sid) owner + 1 = sessionCount g owner := by
  unfold sessionCount
  have he : (Finset.univ.filter (fun i => usedBy (outOfUse g sid) owner i = true))
      = (Finset.univ.filter (fun i => usedBy g owner i = true)).erase sid := by
    ext i
    simp [usedBy_outOfUse]
  rw [he]
  exact card_erase_add_one (by simp [hused])

theorem withoutSessions_none (h : sessionCount g owner = 0) : withoutSessions g owner = g := by
  have hnone := filter_eq_empty_iff.mp (card_eq_zero.mp h)
  simp [withoutSessions, fun i => hnone (Finset.mem_univ i)]

theorem usedBy_withoutSessions (g : Sessions) (owner : Nat) (i : Fin 8) :
    usedBy (withoutSessions g owner) owner i = false := by
  by_cases hu : usedBy g owner i = true
  · have hrow : (withoutSessions g owner).records i = { g.records i with inUse := false } :=
      if_pos hu
    rw [usedBy, hrow]
    rfl
  · have hrow : (withoutSessions g owner).records i = g.records i := if_neg hu
    rw [usedBy, hrow]
    exact Bool.eq_false_iff.mpr hu

/-- **THE ROUNDS**: with a round for each of the owner's sessions, none active, each is destroyed
    and counted once. -/
theorem drainSessions_clears (actor owner rounds : Nat) (acc : Svc × Nat)
    (hactive : ¬ activeOf acc.1.sessions owner)
    (hcount : sessionCount acc.1.sessions owner ≤ rounds) :
    (drainSessions actor owner rounds acc).1.sessions = withoutSessions acc.1.sessions owner
      ∧ (drainSessions actor owner rounds acc).2 = acc.2 + sessionCount acc.1.sessions owner := by
  -- each round takes one session of the owner away, so the count left fits the rounds left
  have hend : ∀ acc : Svc × Nat, sessionCount acc.1.sessions owner = 0 →
      acc.1.sessions = withoutSessions acc.1.sessions owner
        ∧ acc.2 = acc.2 + sessionCount acc.1.sessions owner := fun _ hzero =>
    ⟨(withoutSessions_none hzero).symm, by rw [hzero]; rfl⟩
  fun_induction drainSessions actor owner rounds acc with
  | case1 acc => exact hend acc (Nat.le_zero.mp hcount)
  | case2 _ acc hf =>
    have hnone : ∀ i, usedBy acc.1.sessions owner i = false := Fin.find?_eq_none_iff.mp hf
    exact hend acc (by simp [sessionCount, hnone])
  | case3 rounds acc sid hf ih =>
    have hused : usedBy acc.1.sessions owner sid = true := (Fin.find?_eq_some_iff.mp hf).1
    have hne : sid.val ≠ acc.1.sessions.activeSessionId := fun h => hactive ⟨sid, h, hused⟩
    have hdrop := sessionCount_outOfUse hused
    rw [destroy_used hused hne] at ih ⊢
    have hactive' : ¬ activeOf (outOfUse acc.1.sessions sid) owner := by
      rintro ⟨i, hi, hu⟩
      rw [usedBy_outOfUse, Bool.and_eq_true] at hu
      exact hactive ⟨i, hi, hu.2⟩
    obtain ⟨hsessions, hn⟩ := ih hactive'
      (show sessionCount (outOfUse acc.1.sessions sid) owner ≤ rounds by omega)
    refine ⟨hsessions.trans (withoutSessions_outOfUse hused), hn.trans ?_⟩
    dsimp only
    omega

/-- The rounds never touch the active session. -/
theorem drainSessions_keeps (actor owner rounds : Nat) (acc : Svc × Nat)
    (h : activeOf acc.1.sessions owner) :
    activeOf (drainSessions actor owner rounds acc).1.sessions owner := by
  fun_induction drainSessions actor owner rounds acc with
  | case1 | case2 => exact h
  | case3 _ acc sid hf ih =>
    refine ih ?_
    obtain ⟨i, hi, hu⟩ := h
    by_cases hsid : sid.val = acc.1.sessions.activeSessionId
    · -- the destroy call returns without doing anything
      rw [show sessionManagerDestroy acc.1.sessions sid.val = acc.1.sessions by
        simp [sessionManagerDestroy, hsid]]
      exact ⟨i, hi, hu⟩
    · rw [destroy_used (Fin.find?_eq_some_iff.mp hf).1 hsid]
      refine ⟨i, hi, ?_⟩
      rw [usedBy_outOfUse, hu]
      have hne : i ≠ sid := by rintro rfl; exact hsid hi
      simp [hne]

/-! ## The whole cascade on sessions and rows -/

/-- The number of sessions that went out of use. -/
def sessionsDestroyed (before after : Sessions) : Nat :=
  (Finset.univ.filter (fun i => (before.records i).inUse = true
    ∧ (after.records i).inUse = false)).card

theorem sessionsDestroyed_without (g : Sessions) (owner : Nat) :
    sessionsDestroyed g (withoutSessions g owner) = sessionCount g owner := by
  rw [sessionsDestroyed, sessionCount]
  congr 1
  ext i
  simp only [Finset.mem_filter, Finset.mem_univ, true_and, withoutSessions]
  split_ifs with hu
  · simp [hu, (Bool.and_eq_true_iff.mp hu).1]
  · simp [hu]

theorem destroyOwnerProcess_frame (s : Svc) (pid : BitVec 32) :
    (destroyOwnerProcess s pid).sessions = s.sessions
      ∧ (destroyOwnerProcess s pid).shareRows = s.shareRows
      ∧ (destroyOwnerProcess s pid).broker = s.broker := by
  rw [destroyOwnerProcess]
  split <;> exact ⟨rfl, rfl, rfl⟩

/-- The state in which the session rounds of a deletion start, with the count. -/
def beforeRounds (s : Svc) (actor owner : Nat) (ownerHandle : BitVec 32) : Svc × Nat :=
  let walked := (List.finRange 8).foldl (clearShareRow actor owner)
    ({ s with stdout := s.stdout ++ (capBrokerDeleteOwnerCheck actor owner).2 }, 0)
  ({ walked.1 with
      handles := (capHandleRevokeSubtree walked.1.handles ownerHandle).1 }, walked.2)

/-- The walk leaves the sessions alone and counts the rows it cleared. -/
theorem beforeRounds_spec (s : Svc) (actor owner : Nat) (ownerHandle : BitVec 32) :
    let r := beforeRounds s actor owner ownerHandle
    r.1.sessions = s.sessions ∧ r.2 = rowsCleared s.shareRows r.1.shareRows := by
  rw [beforeRounds]
  dsimp only
  rw [(clearShareRows_frame ..).2.2.1, clearShareRows_count]
  exact ⟨rfl, rfl⟩

/-- A deletion that is allowed is the walk, the rounds and the process. -/
theorem deleteOwner_eq (hok : (brokerSvcDeleteOwner s actor owner h pid).2.1 = .ok) :
    let d := drainSessions actor owner cascadeSessionBound (beforeRounds s actor owner h)
    brokerSvcDeleteOwner s actor owner h pid
      = ((destroyOwnerProcess d.1 pid).auditEmit .cascadeDone actor owner d.2 .ok, .ok, d.2) := by
  have hc := (deleteOwner_ok_iff s actor owner h pid).mp hok
  simp [brokerSvcDeleteOwner, hc, beforeRounds]

/-- **SESSIONS OF A DELETED OWNER**: after a deletion that returns OK no session of the owner is
    left and the count is what was cleared, exactly when the active session was not the owner's. -/
theorem deleteOwner_sessions (s : Svc) (actor owner : Nat) (h pid : BitVec 32) :
    let r := brokerSvcDeleteOwner s actor owner h pid
    r.2.1 = .ok → (((∀ i, usedBy r.1.sessions owner i = false)
        ∧ r.2.2 = rowsCleared s.shareRows r.1.shareRows
          + sessionsDestroyed s.sessions r.1.sessions)
      ↔ ¬ activeOf s.sessions owner) := by
  intro r hok
  obtain ⟨hstart, hrows⟩ := beforeRounds_spec s actor owner h
  rw [show r = _ from deleteOwner_eq hok]
  simp only [Svc.auditEmit, destroyOwnerProcess_frame, drainSessions_frame]
  constructor
  · rintro ⟨hgone, -⟩ hactive
    -- the active session is still there
    obtain ⟨i, -, hu⟩ := drainSessions_keeps actor owner cascadeSessionBound
      (beforeRounds s actor owner h) (by rw [hstart]; exact hactive)
    exact Bool.false_ne_true ((hgone i).symm.trans hu)
  · intro hactive
    obtain ⟨hclear, hn⟩ := drainSessions_clears actor owner cascadeSessionBound
      (beforeRounds s actor owner h) (by rw [hstart]; exact hactive)
      ((card_le_univ _).trans (by decide))
    rw [hclear, hn, hrows, hstart, sessionsDestroyed_without]
    exact ⟨usedBy_withoutSessions s.sessions owner, rfl⟩

/-- Session 0 is active and session 1 is not; subject 5 has session 1 and the sessions named. -/
def sessionsOf (active : Nat) : Sessions :=
  ⟨fun i => ⟨i = 0 ∨ i = 1, if i = 0 then active else 5⟩, 0⟩

/-- The active session is subject 6's: session 1 is destroyed and counted. -/
theorem deleteOwner_sessions_background :
    let r := brokerSvcDeleteOwner (svcReset capResetForTests (sessionsOf 6)) 5 5 0 0
    r.2.1 = .ok ∧ (∀ i, usedBy r.1.sessions 5 i = false) ∧ r.2.2 = 1 := by
  intro r
  have hok : r.2.1 = .ok := by decide +kernel
  have hactive : ¬ activeOf (svcReset capResetForTests (sessionsOf 6)).sessions 5 := by
    rintro ⟨i, hi, hu⟩
    obtain rfl : i = 0 := Fin.ext hi
    cases hu
  exact ⟨hok, ((deleteOwner_sessions _ 5 5 0 0 hok).mpr hactive).1, by decide +kernel⟩

/-- The active session is subject 5's own: every round finds it, session 1 is never reached, and the
    count is the bound. -/
theorem deleteOwner_sessions_active :
    let s := svcReset capResetForTests (sessionsOf 5)
    let r := brokerSvcDeleteOwner s 5 5 0 0
    r.2 = (.ok, 16) ∧ usedBy r.1.sessions 5 0 = true ∧ usedBy r.1.sessions 5 1 = true
      ∧ sessionsDestroyed (sessionsOf 5) r.1.sessions = 0
      ∧ rowsCleared s.shareRows r.1.shareRows = 0 := by
  decide +kernel

/-! ## The broker behind the service -/

/-- The broker call that a call of the service makes. -/
def brokerOps : SvcOp → List CapBroker.BrokerOp
  | .broker op => [op]
  | .approveH approver shareId _ _ _ => [.approve approver shareId]
  | _ => []

/-- A deletion, allowed or not, touches no share and no capability bit. -/
theorem deleteOwner_broker (s : Svc) (actor owner : Nat) (h pid : BitVec 32) :
    (brokerSvcDeleteOwner s actor owner h pid).1.broker.shares = s.broker.shares
      ∧ (brokerSvcDeleteOwner s actor owner h pid).1.broker.caps.bits = s.broker.caps.bits := by
  by_cases hok : (brokerSvcDeleteOwner s actor owner h pid).2.1 = .ok
  · obtain ⟨-, -, -, hs, hb⟩ := drainSessions_frame actor owner cascadeSessionBound
      (beforeRounds s actor owner h)
    rw [deleteOwner_eq hok]
    simp only [Svc.auditEmit, (destroyOwnerProcess_frame _ pid).2.2]
    rw [hs, hb, beforeRounds]
    dsimp only
    simp only [clearShareRows_frame, and_self]
  · rw [deleteOwner_ok_iff, Bool.not_eq_true] at hok
    simp [brokerSvcDeleteOwner, hok, Svc.auditEmit]

/-- **THE SERVICE ON THE BROKER**: a call acts on shares and bits by its broker call. -/
theorem step_broker (s : Svc) (op : SvcOp) :
    (step s op).broker.shares = (run CapBroker.step s.broker (brokerOps op)).shares
      ∧ (step s op).broker.caps.bits = (run CapBroker.step s.broker (brokerOps op)).caps.bits := by
  cases op with
  | approveH approver shareId recipient cap h =>
    obtain ⟨-, he⟩ | ⟨-, -, he⟩ | ⟨-, -, he⟩ := approveH_cases s approver shareId recipient cap h
    all_goals
      rw [step, he]
      exact ⟨rfl, rfl⟩
  | deleteOwner actor owner h pid => exact deleteOwner_broker s actor owner h pid
  | _ => exact ⟨rfl, rfl⟩

/-! ## Where a bit comes from -/

/-- A step around the service: a call on it, or a grant or revocation from elsewhere. -/
inductive WorldOp where
  | svc (op : SvcOp)
  | grant (subject cap : Nat)
  | revoke (subject cap : Nat)
deriving DecidableEq, Repr

/-- The service beside a record of the set bits with a source that is no share: set at the start or
    granted from elsewhere, and not cleared since. -/
structure World where
  svc : Svc
  independent : Nat → Nat → Bool

/-- The service with other capability bits. -/
def Svc.withBits (s : Svc) (bits : Bits) : Svc :=
  { s with broker := { s.broker with caps := { s.broker.caps with bits := bits } } }

/-- What a step does to the service. -/
def worldSvc (s : Svc) : WorldOp → Svc
  | .svc op => step s op
  | .grant subject cap => s.withBits (capTableGrant s.broker.caps.bits subject cap).1
  | .revoke subject cap => s.withBits (capTableRevoke s.broker.caps.bits subject cap).1

/-- The system after a step.  A bit that is clear has no source left. -/
def worldStep (w : World) (op : WorldOp) : World where
  svc := worldSvc w.svc op
  independent r c :=
    (w.independent r c || op == .grant r c)
      && capTableCheck (worldSvc w.svc op).broker.caps.bits r c == .ok

/-- The system after the resets, over any capability table and sessions. -/
def worldReset (k : Caps) (sessions : Sessions) : World :=
  ⟨svcReset k sessions, fun r c => capTableCheck k.bits r c == .ok⟩

/-- The share is approved for this recipient and capability. -/
def gives (share : Share) (r c : Nat) : Prop :=
  share.state = .approved ∧ share.recipientSubjectId = r ∧ share.capabilityId = c

/-- Every set bit is in the record or has an approved share behind it. -/
def SourcedBy (b : CapBroker.State) (independent : Nat → Nat → Bool) : Prop :=
  ∀ r c, capTableCheck b.caps.bits r c = .ok → independent r c ∨ ∃ i, gives (b.shares i) r c

/-- Writing a slot that gives nothing keeps what the other slots give. -/
theorem gives_update {i : Fin 8} {share : Share} {r c : Nat}
    (hi : ¬ gives (shares i) r c) (h : ∃ j, gives (shares j) r c) :
    ∃ j, gives (update shares i share j) r c := by
  obtain ⟨j, hj⟩ := h
  have hji : j ≠ i := by rintro rfl; exact hi hj
  exact ⟨j, by rw [update_of_ne hji]; exact hj⟩

/-- A broker call keeps every set bit sourced. -/
theorem ends_sourced (he : Ends b op t res)
    (h : SourcedBy b independent) : SourcedBy t independent := by
  intro r c hset
  -- a share that was not approved gave nothing
  have hkept : ∀ {i share}, (b.shares i).state ≠ .approved → capTableCheck b.caps.bits r c = .ok →
      independent r c = true ∨ ∃ j, gives (update b.shares i share j) r c :=
    fun hi hset => (h r c hset).imp id (gives_update fun hg => hi hg.1)
  cases he with
  | refused _ hshares hbits =>
    rw [hbits] at hset
    rw [hshares]
    exact h r c hset
  | requested hfree => exact hkept (by simp [hfree]) hset
  | @approved _ _ i _ hi hshares hbits =>
    rw [hbits, capTableCheck_grant] at hset
    rw [hshares]
    obtain ⟨-, rfl, rfl⟩ | hset := hset
    · -- the new bit is what the approved share gives
      exact Or.inr ⟨i, by rw [update_self]; exact ⟨rfl, rfl, rfl⟩⟩
    · exact hkept (by simp [hi.2.1]) hset
  | denied hi hshares hbits =>
    rw [hbits] at hset
    rw [hshares]
    exact hkept (by simp [hi.2.1]) hset
  | revoked _ hshares hbits =>
    rw [hbits, capTableCheck_revoke] at hset
    rw [hshares]
    -- the bit this share gave is gone, so what is still set has another source
    refine (h r c hset.2).imp id (gives_update ?_)
    rintro ⟨-, hr, hc⟩
    exact hset.1 ⟨hr.symm, hc.symm⟩

theorem sourced_broker_run (ops : List CapBroker.BrokerOp)
    (b : CapBroker.State) (h : SourcedBy b independent) :
    SourcedBy (run CapBroker.step b ops) independent :=
  run_inv_all (I := fun b => SourcedBy b independent)
    (fun b op hb => ends_sourced (ends_of_step b op) hb) ops b h

/-- The sources of the system's bits, with the shares sound. -/
structure Sourced (w : World) : Prop where
  bits : SourcedBy w.svc.broker w.independent
  shares : SharesValid w.svc.broker

theorem sourced_step (h : Sourced w) (op : WorldOp) : Sourced (worldStep w op) := by
  -- a bit that is still set keeps its entry in the record
  have hkeep : ∀ r c, capTableCheck (worldSvc w.svc op).broker.caps.bits r c = .ok →
      w.independent r c = true → (worldStep w op).independent r c = true := by
    intro r c hset hind
    simp [worldStep, hset, hind]
  cases op with
  | svc op =>
    obtain ⟨hshares, hbits⟩ := step_broker w.svc op
    constructor
    · intro r c hset
      obtain hind | ⟨i, hi⟩ := sourced_broker_run (brokerOps op) w.svc.broker h.bits r c
        (hbits ▸ hset)
      · exact Or.inl (hkeep r c hset hind)
      · exact Or.inr ⟨i, by rw [← hshares] at hi; exact hi⟩
    · intro i
      show ((step w.svc op).broker.shares i).Sound
      rw [hshares]
      exact run_inv_all (I := SharesValid)
        (fun _ op hb => sharesValid_step hb op) (brokerOps op) _ h.shares i
  | grant subject cap =>
    refine ⟨fun r c hset => ?_, h.shares⟩
    obtain ⟨-, rfl, rfl⟩ | hold := (capTableCheck_grant _ subject cap r c).mp hset
    · refine Or.inl ?_
      have hset' : capTableCheck (worldSvc w.svc (.grant r c)).broker.caps.bits r c = .ok := hset
      simp [worldStep, hset']
    · exact (h.bits r c hold).imp (hkeep r c hset) id
  | revoke subject cap =>
    refine ⟨fun r c hset => ?_, h.shares⟩
    have hold := ((capTableCheck_revoke _ subject cap r c).mp hset).2
    exact (h.bits r c hold).imp (hkeep r c hset) id

/-- **SOURCES**: over every run every set bit has a source. -/
theorem sourced_run (k : Caps) (sessions : Sessions) (ops : List WorldOp) :
    Sourced (run worldStep (worldReset k sessions) ops) := by
  refine run_inv_all (I := Sourced) (fun _ op h => sourced_step h op) ops _ ⟨?_, ?_⟩
  · intro _ _ hset
    exact Or.inl (beq_iff_eq.mpr hset)
  · exact fun i hi => absurd rfl hi

/-! ## The owner's shares -/

/-- The recipient's check passes at this slot: it is the first that admits. -/
def PassesAt (b : CapBroker.State) (i : Fin 8) (r c : Nat) (res : CStr) : Prop :=
  Fin.find? (fun j => (b.shares j).admits r c res) = some i
    ∧ capBrokerRecipientCheck b r c (some res) = .ok

/-- The bit is set and nothing but shares of this owner stand behind it. -/
def OnlyFrom (w : World) (owner r c : Nat) : Prop :=
  capTableCheck w.svc.broker.caps.bits r c = .ok ∧ w.independent r c = false
    ∧ ∀ i, gives (w.svc.broker.shares i) r c → (w.svc.broker.shares i).ownerSubjectId = owner

/-- The owner has nothing to end: each of its approved shares whose recipient holds the capability
    is behind an earlier one of someone else for the same. -/
def NothingToEnd (b : CapBroker.State) (owner : Nat) : Prop :=
  ∀ i, (b.shares i).ownerSubjectId = owner → (b.shares i).state = .approved →
    capTableCheck b.caps.bits (b.shares i).recipientSubjectId (b.shares i).capabilityId = .ok →
    ∃ j < i, (b.shares j).ownerSubjectId ≠ owner
      ∧ (b.shares j).admits (b.shares i).recipientSubjectId (b.shares i).capabilityId
          (b.shares i).resourceName

/-- No check passes at a share of the owner exactly when it has nothing to end. -/
theorem passesAt_none_iff (hs : SharesValid b) (owner : Nat) :
    (∀ i r c res, (b.shares i).ownerSubjectId = owner → ¬ PassesAt b i r c res)
      ↔ NothingToEnd b owner := by
  constructor
  · intro hnone i howner hst hheld
    have hadm : (b.shares i).admits (b.shares i).recipientSubjectId (b.shares i).capabilityId
        (b.shares i).resourceName = true :=
      (admits_iff _ _ _ _).mpr ⟨hst, rfl, rfl, rfl⟩
    have hcheck := (recipientCheck_ok_iff hs _ _ _).mpr ⟨⟨i, hadm⟩, hheld⟩
    obtain hf | ⟨j, hf⟩ := Option.eq_none_or_eq_some
      (Fin.find? (fun j => (b.shares j).admits (b.shares i).recipientSubjectId
        (b.shares i).capabilityId (b.shares i).resourceName))
    · exact absurd (Fin.find?_eq_none_iff.mp hf i) (by rw [hadm]; decide)
    · obtain ⟨hj, hfirst⟩ := Fin.find?_eq_some_iff.mp hf
      have hother : (b.shares j).ownerSubjectId ≠ owner := fun h => hnone j _ _ _ h ⟨hf, hcheck⟩
      refine ⟨j, ?_, hother, hj⟩
      -- the first admitting slot is not after `i`, and `i` is the owner's
      rcases lt_trichotomy j i with hlt | rfl | hgt
      · exact hlt
      · exact absurd howner hother
      · exact absurd hadm (by rw [hfirst i hgt]; decide)
  · rintro hend i _ _ _ howner ⟨hf, hcheck⟩
    obtain ⟨hi, hfirst⟩ := Fin.find?_eq_some_iff.mp hf
    obtain ⟨hst, rfl, rfl, rfl⟩ := (admits_iff _ _ _ _).mp hi
    have hheld := ((recipientCheck_ok_iff hs _ _ _).mp hcheck).2
    obtain ⟨j, hlt, -, hj⟩ := hend i howner hst hheld
    exact absurd hj (by rw [hfirst j hlt]; decide)

/-- If the owner has nothing to end, no bit comes from its shares only. -/
theorem onlyFrom_none (h : Sourced w) (hend : NothingToEnd w.svc.broker owner)
    (r c : Nat) : ¬ OnlyFrom w owner r c := by
  rintro ⟨hset, hind, hall⟩
  obtain hsrc | ⟨i, hi⟩ := h.bits r c hset
  · exact Bool.false_ne_true (hind.symm.trans hsrc)
  · obtain ⟨hst, rfl, rfl⟩ := hi
    obtain ⟨j, -, hother, hj⟩ := hend i (hall i ⟨hst, rfl, rfl⟩) hst hset
    obtain ⟨hst', hr, hc, -⟩ := (admits_iff _ _ _ _).mp hj
    exact hother (hall j ⟨hst', hr, hc⟩)

/-- **SHARES OF A DELETED OWNER**: in every run, after a deletion no recipient's check passes at a
    share of the owner and no bit rests on its shares alone, exactly when each of its approved
    shares in effect was behind an earlier share of someone else for the same.  The deletion itself
    ends no share. -/
theorem deleteOwner_shares (k : Caps) (sessions : Sessions) (ops : List WorldOp)
    (actor owner : Nat) (h pid : BitVec 32) :
    let w := run worldStep (worldReset k sessions) ops
    let w' := worldStep w (.svc (.deleteOwner actor owner h pid))
    ((∀ i r c res, (w'.svc.broker.shares i).ownerSubjectId = owner →
          ¬ PassesAt w'.svc.broker i r c res)
        ∧ ∀ r c, ¬ OnlyFrom w' owner r c)
      ↔ NothingToEnd w.svc.broker owner := by
  intro w w'
  have hafter : Sourced w' := by
    have h := sourced_run k sessions (ops ++ [.svc (.deleteOwner actor owner h pid)])
    rwa [run_append] at h
  have hsame : NothingToEnd w'.svc.broker owner ↔ NothingToEnd w.svc.broker owner := by
    obtain ⟨hshares, hbits⟩ := deleteOwner_broker w.svc actor owner h pid
    show NothingToEnd (brokerSvcDeleteOwner w.svc actor owner h pid).1.broker owner ↔ _
    rw [NothingToEnd, NothingToEnd, hshares, hbits]
  rw [← hsame, ← passesAt_none_iff hafter.shares]
  constructor
  · exact fun hp => hp.1
  · intro hp
    exact ⟨hp, onlyFrom_none hafter ((passesAt_none_iff hafter.shares owner).mp hp)⟩

/-- Subject 0 shares its read capability with subject 1 and approves. -/
def shared : List WorldOp :=
  (requested ++ [SvcOp.approveH 0 1 1 capFsRead ownerHandle]).map WorldOp.svc

/-- Subject 0 takes the share back before it goes. -/
def sharedAndRevoked : List WorldOp := shared ++ [.svc (.broker (.revoke 0 1))]

/-- With its share revoked beforehand nothing of subject 0 stays behind. -/
theorem deleteOwner_shares_revoked :
    let w := run worldStep (worldReset ownerHolds noSessions) sharedAndRevoked
    (brokerSvcDeleteOwner w.svc 0 0 ownerHandle 0).2.1 = .ok
      ∧ ∀ r c, ¬ OnlyFrom (worldStep w (.svc (.deleteOwner 0 0 ownerHandle 0))) 0 r c := by
  intro w
  have hok : (brokerSvcDeleteOwner w.svc 0 0 ownerHandle 0).2.1 = .ok := by decide +kernel
  have hend : NothingToEnd w.svc.broker 0 := by
    have hstates : ∀ i, (w.svc.broker.shares i).state ≠ .approved := by decide +kernel
    exact fun i _ hst => absurd hst (hstates i)
  exact ⟨hok, ((deleteOwner_shares ownerHolds noSessions sharedAndRevoked 0 0 ownerHandle
    0).mpr hend).2⟩

/-- Subject 0 approves a share and deletes itself: the recipient's check still passes at the share,
    and it keeps the bit that had no other source. -/
theorem deleteOwner_keeps_share :
    let w := run worldStep (worldReset ownerHolds noSessions) shared
    let w' := worldStep w (.svc (.deleteOwner 0 0 ownerHandle 0))
    (brokerSvcDeleteOwner w.svc 0 0 ownerHandle 0).2.1 = .ok
      ∧ (w'.svc.broker.shares 0).ownerSubjectId = 0
      ∧ PassesAt w'.svc.broker 0 1 capFsRead ['a'] ∧ OnlyFrom w' 0 1 capFsRead := by
  intro w w'
  have hpasses : PassesAt w'.svc.broker 0 1 capFsRead ['a'] :=
    ⟨by decide +kernel, by decide +kernel⟩
  have hothers : ∀ i, (w'.svc.broker.shares i).ownerSubjectId = 0 := by decide +kernel
  exact ⟨by decide +kernel, hothers 0, hpasses, by decide +kernel, by decide +kernel,
    fun i _ => hothers i⟩

end BrokerSvc
