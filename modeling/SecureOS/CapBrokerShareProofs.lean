import SecureOS.CapBrokerModel
import SecureOS.Lib.MachineRunProofs

/-! # What an approved share is worth

Several shares can give one recipient the same capability for different resources, but the
capability table has one bit per recipient and capability: every approval sets it, every
revocation clears it. -/

namespace CapBroker

open Capability CapTable MachineRun Function

theorem brokerResourceEqual_iff : ∀ a b : CStr, brokerResourceEqual a b ↔ a = b := by
  intro a
  induction a with
  | nil =>
    intro b
    cases b <;> simp [brokerResourceEqual]
  | cons x _ ih =>
    intro b
    cases b with
    | nil => simp [brokerResourceEqual]
    | cons c => by_cases hxc : x = c <;> simp [brokerResourceEqual, ih, hxc]

theorem admits_iff (share : Share) (r c : Nat) (res : CStr) : share.admits r c res
      ↔ share.state = .approved ∧ share.recipientSubjectId = r
        ∧ share.capabilityId = c ∧ share.resourceName = res := by
  simp [Share.admits, brokerResourceEqual_iff, and_assoc]

/-! ## One call -/

/-- The slot a successful approval turns from requested to approved. -/
def approves (s : State) (approver shareId : Nat) (i : Fin 8) : Prop :=
  brokerShareAt shareId = some i ∧ (s.shares i).state = .requested
    ∧ approver = (s.shares i).ownerSubjectId
    ∧ ValidPair (s.shares i).recipientSubjectId (s.shares i).capabilityId

/-- The slot a successful denial turns from requested to denied. -/
def denies (s : State) (approver shareId : Nat) (i : Fin 8) : Prop :=
  brokerShareAt shareId = some i ∧ (s.shares i).state = .requested
    ∧ approver = (s.shares i).ownerSubjectId

/-- The slot a successful revocation turns from approved to revoked. -/
def revokes (s : State) (actor shareId : Nat) (i : Fin 8) : Prop :=
  brokerShareAt shareId = some i ∧ (s.shares i).state = .approved
    ∧ (actor = (s.shares i).ownerSubjectId ∨ actor = (s.shares i).recipientSubjectId)

/-- What the request checks of the share it records. -/
def Share.Sound (share : Share) : Prop :=
  share.state ≠ .none → share.ownerSubjectId ≠ share.recipientSubjectId
      ∧ ValidPair share.recipientSubjectId share.capabilityId
      ∧ share.resourceName ≠ []

/-- The result a call returns. -/
def result (s : State) : BrokerOp → BrokerResult
  | .request owner recipient cap resource =>
    (capBrokerRequestShare s owner recipient cap resource).2.1
  | .approve approver shareId => (capBrokerApprove s approver shareId).2
  | .deny approver shareId => (capBrokerDeny s approver shareId).2
  | .revoke actor shareId => (capBrokerRevoke s actor shareId).2

/-- **THE WAYS A CALL ENDS**, with the state it leaves and its result: an error that changed neither
    shares nor bits, or one slot written. -/
inductive Ends (s : State) : BrokerOp → State → BrokerResult → Prop
  | refused {op : BrokerOp} {t : State} {r : BrokerResult} (hno : r ≠ .ok)
      (hshares : t.shares = s.shares) (hbits : t.caps.bits = s.caps.bits) : Ends s op t r
  | requested {owner recipient cap : Nat} {resource : Option CStr} {i : Fin 8} {name : CStr}
      (hfree : (s.shares i).state = .none)
      (hheld : capTableCheck s.caps.bits owner cap = .ok)
      (hsound : (⟨.requested, owner, recipient, cap, name⟩ : Share).Sound)
      (hresult : (capBrokerRequestShare s owner recipient cap resource).2 = (.ok, i.val + 1)) :
      Ends s (.request owner recipient cap resource)
        { s with
          shares := update s.shares i ⟨.requested, owner, recipient, cap, name⟩ } .ok
  | approved {approver shareId : Nat} {i : Fin 8} {t : State} (hi : approves s approver shareId i)
      (hshares : t.shares = update s.shares i { s.shares i with state := .approved })
      (hbits : t.caps.bits = (capTableGrant s.caps.bits (s.shares i).recipientSubjectId
        (s.shares i).capabilityId).1) : Ends s (.approve approver shareId) t .ok
  | denied {approver shareId : Nat} {i : Fin 8} {t : State} (hi : denies s approver shareId i)
      (hshares : t.shares = update s.shares i { s.shares i with state := .denied })
      (hbits : t.caps.bits = s.caps.bits) : Ends s (.deny approver shareId) t .ok
  | revoked {actor shareId : Nat} {i : Fin 8} {t : State} (hi : revokes s actor shareId i)
      (hshares : t.shares = update s.shares i { s.shares i with state := .revoked })
      (hbits : t.caps.bits = (capTableRevoke s.caps.bits (s.shares i).recipientSubjectId
        (s.shares i).capabilityId).1) : Ends s (.revoke actor shareId) t .ok

theorem brokerResourceCopy_ne_nil (h : brokerResourceCopy resource = some name) : name ≠ [] := by
  cases resource with
  | none => cases h
  | some =>
    rw [brokerResourceCopy] at h
    split_ifs at h with _ hlen
    rintro rfl
    exact hlen (by rw [Option.some.inj h]; rfl)

theorem request_ends (s : State) (owner recipient cap : Nat) (resource : Option CStr) :
    Ends s (.request owner recipient cap resource)
      (capBrokerRequestShare s owner recipient cap resource).1
      (capBrokerRequestShare s owner recipient cap resource).2.1 := by
  fun_cases capBrokerRequestShare s owner recipient cap resource with
  | case7 hne hlt hcap hheld name hname i hf =>
    have hfree : (s.shares i).state = .none := by simpa using (Fin.find?_eq_some_iff.mp hf).1
    have hv := ((capTableCheck_ok_iff _ _ _).mp (not_not.mp hheld)).1
    rw [not_or] at hlt
    exact .requested hfree (not_not.mp hheld)
      (fun _ => ⟨hne, ⟨Nat.lt_of_not_le hlt.2, hv.2⟩, brokerResourceCopy_ne_nil hname⟩)
      (by rw [capBrokerRequestShare]; simp [*])
  | _ => exact .refused (by simp) rfl rfl

theorem ends_of_step (s : State) (op : BrokerOp) : Ends s op (step s op) (result s op) := by
  cases op with
  | request owner recipient cap resource => exact request_ends s owner recipient cap resource
  | approve approver shareId =>
    rw [step, result]
    fun_cases capBrokerApprove s approver shareId with
    | case5 i hi share _ hq ho g _ hg =>
      have hv := mt (capTableGrant_ok_iff s.caps.bits _ _).mpr hg
      exact .refused (by simp) rfl (capTableGrant_of_not_valid _ hv)
    | case6 i hi share _ hq ho g _ hg =>
      have hv := (capTableGrant_ok_iff s.caps.bits _ _).mp (not_not.mp hg)
      exact .approved ⟨hi, not_not.mp hq, not_not.mp ho, hv⟩ rfl rfl
    | _ => exact .refused (by simp) rfl rfl
  | deny approver shareId =>
    rw [step, result]
    fun_cases capBrokerDeny s approver shareId with
    | case5 i hi share _ hq ho => exact .denied ⟨hi, not_not.mp hq, not_not.mp ho⟩ rfl rfl
    | _ => exact .refused (by simp) rfl rfl
  | revoke actor shareId =>
    rw [step, result]
    fun_cases capBrokerRevoke s actor shareId with
    | case5 i hi share _ hq ha => exact .revoked ⟨hi, not_not.mp hq, by tauto⟩ rfl rfl
    | _ => exact .refused (by simp) rfl rfl

/-- Every used slot holds a sound share. -/
def SharesValid (s : State) : Prop := ∀ i, (s.shares i).Sound

variable {i : Fin 8}

/-- Rewriting the state of a used slot keeps the slots sound. -/
theorem sound_update {shares : Shares} {share : Share} (h : ∀ j, (shares j).Sound)
    (hi : share.Sound) (j : Fin 8) : (update shares i share j).Sound := by
  rw [update_apply]
  split_ifs
  · exact hi
  · exact h j

variable {s : State}

theorem sharesValid_step (h : SharesValid s) (op : BrokerOp) : SharesValid (step s op) := by
  -- a changed slot keeps the ids and name it was requested with
  have hkeep : ∀ (i : Fin 8) (st : ShareState), (s.shares i).state ≠ .none →
      ({ s.shares i with state := st } : Share).Sound :=
    fun i _ hi _ => h i hi
  have hends := ends_of_step s op
  generalize step s op = t, result s op = r at hends ⊢
  intro j
  cases hends with
  | refused _ hshares => rw [hshares]; exact h j
  | requested _ _ hsound => exact sound_update h hsound j
  | approved hi hshares | denied hi hshares | revoked hi hshares =>
    rw [hshares]
    exact sound_update h (hkeep _ _ (by rw [hi.2.1]; decide)) j

theorem sharesValid_run (k : Caps) (ops : List BrokerOp) :
    SharesValid (run step (capBrokerReset k) ops) :=
  run_inv_all (I := SharesValid) (fun _ op h => sharesValid_step h op) ops _
    (fun _ h => absurd rfl h)

/-! ## The bit behind the shares -/

/-- The call's share is one for this recipient and capability. -/
def namesPair (s : State) (shareId r c : Nat) : Bool :=
  match brokerShareAt shareId with
  | none => false
  | some i => (s.shares i).recipientSubjectId == r && (s.shares i).capabilityId == c

/-- What a call does to a pair: a successful approval for it sets its bit, a revocation clears it.
    -/
def effect (s : State) (op : BrokerOp) (r c : Nat) : Option Bool :=
  match op with
  | .approve approver shareId =>
    if (capBrokerApprove s approver shareId).2 = .ok ∧ namesPair s shareId r c then
      some true
    else none
  | .revoke actor shareId =>
    if (capBrokerRevoke s actor shareId).2 = .ok ∧ namesPair s shareId r c then
      some false
    else none
  | _ => none

/-- The last effect of a run on a recipient's capability. -/
def lastEffect : State → List BrokerOp → Nat → Nat → Option Bool → Option Bool
  | _, [], _, _, last => last
  | s, op :: ops, r, c, last => lastEffect (step s op) ops r c ((effect s op r c).or last)

theorem namesPair_iff (hi : brokerShareAt shareId = some i) (r c : Nat) : namesPair s shareId r c
      ↔ r = (s.shares i).recipientSubjectId ∧ c = (s.shares i).capabilityId := by
  rw [namesPair, hi]
  rw [Bool.and_eq_true, beq_iff_eq, beq_iff_eq]
  exact ⟨fun h => ⟨h.1.symm, h.2.symm⟩, fun h => ⟨h.1.symm, h.2.symm⟩⟩

/-- One call moves a recipient's bit by its effect on the pair only. -/
theorem held_step (s : State) (op : BrokerOp) (r c : Nat) :
    capTableCheck (step s op).caps.bits r c = .ok
      ↔ match effect s op r c with
        | some b => b
        | none => capTableCheck s.caps.bits r c = .ok := by
  have hends := ends_of_step s op
  generalize step s op = t, hr : result s op = res at hends ⊢
  cases hends with
  | refused hno _ hbits =>
    have hnone : effect s op r c = none := by cases op <;> simp_all [effect, result]
    rw [hbits, hnone]
  | requested => exact Iff.rfl
  | denied _ _ hbits => exact hbits ▸ Iff.rfl
  | @approved _ shareId _ _ hi _ hbits =>
    rw [result] at hr
    rw [hbits, capTableCheck_grant, ← namesPair_iff hi.1]
    cases hpair : namesPair s shareId r c <;> simp [effect, hr, hpair, hi.2.2.2]
  | @revoked _ shareId _ _ hi _ hbits =>
    rw [result] at hr
    rw [hbits, capTableCheck_revoke, ← namesPair_iff hi.1]
    cases hpair : namesPair s shareId r c <;> simp [effect, hr, hpair]

/-- Over a run the bit is set by the last effect, or was set at the start and never touched. -/
theorem held_run (r c : Nat) :
    ∀ (ops : List BrokerOp) (s : State) (last : Option Bool) (held : Prop),
      (capTableCheck s.caps.bits r c = .ok ↔ last = some true ∨ (last = none ∧ held)) →
        (capTableCheck (run step s ops).caps.bits r c = .ok ↔ lastEffect s ops r c last = some true
            ∨ (lastEffect s ops r c last = none ∧ held)) := by
  intro ops
  induction ops with
  | nil => intro s last held h; exact h
  | cons op _ ih =>
    intro s _ held h
    refine ih (step s op) _ held ?_
    rw [held_step]
    cases he : effect s op r c with
    | some => simp
    | none => simpa using h

/-! ## The recipient's check -/

/-- The check passes exactly with an approved share for the resource and the capability bit. -/
theorem recipientCheck_ok_iff (hs : SharesValid s) (r c : Nat) (res : CStr) :
    capBrokerRecipientCheck s r c (some res) = .ok ↔ (∃ i, (s.shares i).admits r c res)
        ∧ capTableCheck s.caps.bits r c = .ok := by
  unfold capBrokerRecipientCheck
  by_cases hr : capTableMaxSubjects ≤ r
  · rw [if_pos hr]
    refine iff_of_false (by simp) (fun h => ?_)
    exact absurd hr (Nat.not_le_of_lt ((capTableCheck_ok_iff _ _ _).mp h.2).1.1)
  · rw [if_neg hr]
    cases res with
    | nil =>
      refine iff_of_false (by simp) ?_
      rintro ⟨⟨i, hi⟩, -⟩
      obtain ⟨hst, -, -, hres⟩ := (admits_iff _ _ _ _).mp hi
      exact (hs i (by rw [hst]; decide)).2.2 hres
    | cons =>
      dsimp only
      split
      next hf =>
        refine iff_of_false (by simp) ?_
        rintro ⟨⟨i, hi⟩, -⟩
        exact absurd hi (by simp [Fin.find?_eq_none_iff.mp hf i])
      next i hf =>
        have hi := (Fin.find?_eq_some_iff.mp hf).1
        by_cases hc : capTableCheck s.caps.bits r c = .ok
        · simp only [hc, ne_eq, not_true, if_false, true_iff, and_true]
          exact ⟨i, hi⟩
        · simp [hc]

/-- The slot of a revocation that reported OK, and what it changed. -/
theorem revoked_of_ok : let r := capBrokerRevoke s actor shareId
    r.2 = .ok → ∃ i, revokes s actor shareId i
      ∧ r.1.shares = update s.shares i { s.shares i with state := .revoked }
      ∧ r.1.caps.bits = (capTableRevoke s.caps.bits (s.shares i).recipientSubjectId
          (s.shares i).capabilityId).1 := by
  intro r h
  have hends : Ends s (.revoke actor shareId) r.1 r.2 := ends_of_step s (.revoke actor shareId)
  rw [h] at hends
  cases hends with
  | refused hno => exact absurd rfl hno
  | revoked hi hshares hbits => exact ⟨_, hi, hshares, hbits⟩

/-- Revoking a share leaves the answers for every other recipient or capability as they were. -/
theorem recipientCheck_revoke_other
    (hshares : t.shares = update s.shares i { s.shares i with state := .revoked })
    (hbits : t.caps.bits = (capTableRevoke s.caps.bits (s.shares i).recipientSubjectId
      (s.shares i).capabilityId).1) (r c : Nat) (resource : Option CStr)
    (hother : ¬ (r = (s.shares i).recipientSubjectId ∧ c = (s.shares i).capabilityId)) :
    capBrokerRecipientCheck t r c resource = capBrokerRecipientCheck s r c resource := by
  have hscan : ∀ name : CStr,
      (fun k => (t.shares k).admits r c name) = fun k => (s.shares k).admits r c name := by
    intro _
    funext k
    rw [hshares, update_apply, Bool.eq_iff_iff]
    split_ifs with hk
    · rw [admits_iff, admits_iff]
      grind
    · rfl
  have hheld : capTableCheck t.caps.bits r c = .ok ↔ capTableCheck s.caps.bits r c = .ok := by
    rw [hbits, capTableCheck_revoke]
    exact and_iff_right hother
  unfold capBrokerRecipientCheck
  simp only [hscan, ne_eq, hheld]

/-- **SHARES AND THE BIT**: in every run a recipient's check passes exactly when an approved share
    for the resource exists and the bit is set, which the last approval or revocation for the pair
    decided, of whichever share.  Revoking a share changes answers for its own pair only, and takes
    that pair's bit. -/
theorem share_answers (k : Caps) (ops : List BrokerOp) :
    let s := run step (capBrokerReset k) ops
    (∀ r c res, capBrokerRecipientCheck s r c (some res) = .ok
          ↔ (∃ i, (s.shares i).admits r c res = true)
            ∧ (lastEffect (capBrokerReset k) ops r c none = some true
              ∨ (lastEffect (capBrokerReset k) ops r c none = none
                ∧ capTableCheck k.bits r c = .ok)))
      ∧ ∀ actor shareId, (capBrokerRevoke s actor shareId).2 = .ok →
          ∃ i, brokerShareAt shareId = some i
            ∧ (∀ r c resource,
                ¬ (r = (s.shares i).recipientSubjectId ∧ c = (s.shares i).capabilityId) →
                capBrokerRecipientCheck (capBrokerRevoke s actor shareId).1 r c resource
                  = capBrokerRecipientCheck s r c resource)
            ∧ capTableCheck (capBrokerRevoke s actor shareId).1.caps.bits
                (s.shares i).recipientSubjectId (s.shares i).capabilityId ≠ .ok
            ∧ ∀ res, capBrokerRecipientCheck (capBrokerRevoke s actor shareId).1
                (s.shares i).recipientSubjectId (s.shares i).capabilityId (some res) ≠ .ok := by
  intro s
  have hs : SharesValid s := sharesValid_run k ops
  refine ⟨?_, ?_⟩
  · intro r c res
    rw [recipientCheck_ok_iff hs, held_run r c ops (capBrokerReset k) none
      (capTableCheck k.bits r c = .ok) (by simp [capBrokerReset])]
  · intro actor shareId hok
    obtain ⟨i, ⟨hslot, -⟩, hshares, hbits⟩ := revoked_of_ok hok
    have hclear : capTableCheck (capBrokerRevoke s actor shareId).1.caps.bits
        (s.shares i).recipientSubjectId (s.shares i).capabilityId ≠ .ok := by
      rw [hbits, ne_eq, capTableCheck_revoke]
      exact fun h => h.1 ⟨rfl, rfl⟩
    refine ⟨i, hslot, recipientCheck_revoke_other hshares hbits, hclear, ?_⟩
    intro res h
    exact hclear ((recipientCheck_ok_iff (sharesValid_step hs (.revoke actor shareId))
      _ _ res).mp h).2

/-! ## Two shares of one bit -/

/-- Subjects 0 and 1 both hold `CAP_FS_READ`. -/
def bothHold : Caps :=
  ⟨(capTableGrant (capTableGrant capTableReset 0 capFsRead).1 1 capFsRead).1, auditReset⟩

/-- Two shares to subject 1 for two resources, both approved. -/
def twoShares : List BrokerOp :=
  [.request 0 1 capFsRead (some ['a']), .request 0 1 capFsRead (some ['b']),
    .approve 0 1, .approve 0 2]

/-- Revoking the first share silences the second, still approved one, and takes the capability the
    recipient held before either. -/
theorem share_revoked_with_other :
    let s := run step (capBrokerReset bothHold) twoShares
    let s' := step s (.revoke 0 1)
    capTableCheck bothHold.bits 1 capFsRead = .ok
      ∧ capBrokerRecipientCheck s 1 capFsRead (some ['b']) = .ok
      ∧ (s'.shares 1).admits 1 capFsRead ['b'] = true
      ∧ capBrokerRecipientCheck s' 1 capFsRead (some ['b']) = .errMissing
      ∧ capTableCheck s'.caps.bits 1 capFsRead = .errMissing := by
  decide +kernel

end CapBroker
