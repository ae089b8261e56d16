import SecureOS.CapBrokerShareProofs

/-! # What the broker can give away

The broker runs in a system where others grant and revoke capabilities
between its calls.  This file follows its entry points over every such run.

* `broker_confined` — the broker sets a bit only by an approval of its owner's
  own offer, a share keeps to its life, and an error has changed neither table. -/

namespace CapBroker

open Capability CapTable MachineRun Function

/-- A call on the broker; a request says whether it passes a place for the share id. -/
inductive Call where
  | request (place : Bool) (owner recipient cap : Nat) (resource : Option CStr)
  | approve (approver shareId : Nat)
  | deny (approver shareId : Nat)
  | revoke (actor shareId : Nat)
  | recipientCheck (recipient cap : Nat) (resource : Option CStr)
deriving DecidableEq, Repr

/-- What a call returns: a broker result, or the result of the recipient's check. -/
inductive Answer where
  | share (result : BrokerResult)
  | check (result : CapResult)
deriving DecidableEq, Repr

/-- The call reports an error. -/
def Answer.isError : Answer → Bool
  | .share result => result ≠ .ok
  | .check result => result ≠ .ok

/-- The call itself: the state it leaves and what it returns. -/
def invoke (s : State) : Call → State × Answer
  | .request place owner recipient cap resource =>
    -- without a place for the id nothing is looked at
    if !place then (s, .share .errInvalidSubject)
    else
      let r := capBrokerRequestShare s owner recipient cap resource
      (r.1, .share r.2.1)
  | .approve approver shareId =>
    let r := capBrokerApprove s approver shareId
    (r.1, .share r.2)
  | .deny approver shareId =>
    let r := capBrokerDeny s approver shareId
    (r.1, .share r.2)
  | .revoke actor shareId =>
    let r := capBrokerRevoke s actor shareId
    (r.1, .share r.2)
  | .recipientCheck recipient cap resource =>
    (s, .check (capBrokerRecipientCheck s recipient cap resource))

/-- A step around the broker: a call on it, or grants and revocations that leave any capability
    table. -/
inductive SysOp where
  | call (c : Call)
  | elsewhere (caps : Caps)

/-- The state a step of the system leaves. -/
def sysStep (s : State) : SysOp → State
  | .call c => (invoke s c).1
  | .elsewhere caps => { s with caps := caps }

/-- The call of an operation of the broker. -/
def callOf : BrokerOp → Call
  | .request owner recipient cap resource => .request true owner recipient cap resource
  | .approve approver shareId => .approve approver shareId
  | .deny approver shareId => .deny approver shareId
  | .revoke actor shareId => .revoke actor shareId

/-- A call leaves the broker as it is, or is one of its operations. -/
theorem invoke_cases (s : State) (c : Call) : (invoke s c).1 = s
      ∨ ∃ op, c = callOf op ∧ invoke s c = (step s op, .share (result s op)) := by
  cases c with
  | request place owner recipient cap resource =>
    cases place with
    | false => exact .inl rfl
    | true => exact .inr ⟨.request owner recipient cap resource, rfl, rfl⟩
  | approve approver shareId => exact .inr ⟨.approve approver shareId, rfl, rfl⟩
  | deny approver shareId => exact .inr ⟨.deny approver shareId, rfl, rfl⟩
  | revoke actor shareId => exact .inr ⟨.revoke actor shareId, rfl, rfl⟩
  | recipientCheck => exact .inl rfl

/-! ## The life of a share -/

/-- The edges of a share's life. -/
inductive Moves : ShareState → ShareState → Prop
  | request : Moves .none .requested
  | approve : Moves .requested .approved
  | deny : Moves .requested .denied
  | revoke : Moves .approved .revoked

/-- Writing one slot along an edge moves every slot along an edge or not at all. -/
theorem moves_update {shares : Shares} {share : Share} (h : Moves (shares i).state share.state)
    (j : Fin 8) : (update shares i share j).state = (shares j).state
      ∨ Moves (shares j).state (update shares i share j).state := by
  rw [update_apply]
  split_ifs with hj
  · exact Or.inr (hj ▸ h)
  · exact Or.inl rfl

/-- A call moves a share along one edge of its life or not at all. -/
theorem Ends.moves (h : Ends s op t r) (j : Fin 8) :
    (t.shares j).state = (s.shares j).state ∨ Moves (s.shares j).state (t.shares j).state := by
  cases h with
  | refused _ hshares => rw [hshares]; exact Or.inl rfl
  | requested hfree => exact moves_update (by rw [hfree]; exact .request) j
  | approved hi hshares =>
    rw [hshares]
    exact moves_update (by rw [hi.2.1]; exact .approve) j
  | denied hi hshares =>
    rw [hshares]
    exact moves_update (by rw [hi.2.1]; exact .deny) j
  | revoked hi hshares =>
    rw [hshares]
    exact moves_update (by rw [hi.2.1]; exact .revoke) j

/-- So does a step of the system. -/
theorem sysStep_moves (s : State) (op : SysOp) (j : Fin 8) :
    ((sysStep s op).shares j).state = (s.shares j).state
      ∨ Moves (s.shares j).state ((sysStep s op).shares j).state := by
  cases op with
  | elsewhere => exact Or.inl rfl
  | call c =>
    rw [sysStep]
    obtain he | ⟨op, -, he⟩ := invoke_cases s c
    · rw [he]; exact Or.inl rfl
    · rw [he]; exact (ends_of_step s op).moves j

/-! ## Where a share comes from -/

/-- In the run this offer was requested for this slot while the owner held the capability. -/
def Asked (k : Caps) (ops : List SysOp) (i : Fin 8) (owner recipient cap : Nat) : Prop :=
  ∃ before after resource,
    ops = before ++ .call (.request true owner recipient cap resource) :: after
      ∧ capTableCheck (run sysStep (capBrokerReset k) before).caps.bits owner cap = .ok
      ∧ (capBrokerRequestShare (run sysStep (capBrokerReset k) before) owner recipient cap
          resource).2 = (.ok, i.val + 1)

variable {k : Caps} {ops : List SysOp}

/-- What was asked stays asked. -/
theorem Asked.snoc (h : Asked k ops i owner recipient cap)
    (op : SysOp) : Asked k (ops ++ [op]) i owner recipient cap := by
  obtain ⟨before, after, resource, rfl, hheld, hresult⟩ := h
  exact ⟨before, after ++ [op], resource, by rw [List.append_assoc, List.cons_append], hheld,
    hresult⟩

/-- Every used slot was asked for. -/
def SharesAsked (k : Caps) (ops : List SysOp) (s : State) : Prop :=
  ∀ i, (s.shares i).state ≠ .none →
    Asked k ops i (s.shares i).ownerSubjectId (s.shares i).recipientSubjectId
      (s.shares i).capabilityId

/-- Changing the state of a used slot changes nothing about where it comes from. -/
theorem sharesAsked_setState (op : SysOp) (h : SharesAsked k ops s)
    (hused : (s.shares i).state ≠ .none)
    (ht : t.shares = update s.shares i { s.shares i with state := st }) :
    SharesAsked k (ops ++ [op]) t := by
  intro j hj
  rw [ht] at hj ⊢
  rcases eq_or_ne j i with rfl | hji
  · rw [update_self]
    exact (h j hused).snoc op
  · rw [update_of_ne hji] at hj ⊢
    exact (h j hj).snoc op

section

variable (h : SharesAsked k ops (run sysStep (capBrokerReset k) ops))
include h

theorem Ends.asked (he : Ends (run sysStep (capBrokerReset k) ops) op t r) :
    SharesAsked k (ops ++ [.call (callOf op)]) t := by
  cases he with
  | refused _ hshares =>
    intro i hi
    rw [hshares] at hi ⊢
    exact (h i hi).snoc _
  | @requested _ _ _ resource i _ _ hheld _ hresult =>
    intro j hj
    rcases eq_or_ne j i with rfl | hji
    · -- the slot just filled: this very call is the request
      simp only [update_self]
      exact ⟨ops, [], resource, rfl, hheld, hresult⟩
    · simp only [update_of_ne hji] at hj ⊢
      exact (h j hj).snoc _
  | approved hi hshares | denied hi hshares | revoked hi hshares =>
    exact sharesAsked_setState _ h (by rw [hi.2.1]; decide) hshares

theorem sharesAsked_step (op : SysOp) :
    SharesAsked k (ops ++ [op]) (sysStep (run sysStep (capBrokerReset k) ops) op) := by
  cases op with
  | elsewhere => exact fun i hi => (h i hi).snoc _
  | call c =>
    rw [sysStep]
    obtain he | ⟨op, rfl, he⟩ := invoke_cases (run sysStep (capBrokerReset k) ops) c
    · rw [he]; exact fun i hi => (h i hi).snoc _
    · rw [he]; exact (ends_of_step _ op).asked h

end

/-- Over every run every used slot was asked for. -/
theorem sharesAsked_run (k : Caps) (ops : List SysOp) :
    SharesAsked k ops (run sysStep (capBrokerReset k) ops) := by
  induction ops using List.reverseRecOn with
  | nil => exact fun i hi => absurd rfl hi
  | append_singleton _ op ih =>
    rw [run_append]
    exact sharesAsked_step ih op

/-! ## Confinement -/

section Ends

/-- A call that sets a bit is the approval of a requested share by its owner. -/
theorem Ends.sets (h : Ends s op t res) (hclear : capTableCheck s.caps.bits r cap ≠ .ok)
    (hset : capTableCheck t.caps.bits r cap = .ok) :
    ∃ approver shareId i, op = .approve approver shareId ∧ approves s approver shareId i
      ∧ (s.shares i).recipientSubjectId = r ∧ (s.shares i).capabilityId = cap := by
  cases h with
  | refused _ _ hbits | denied _ _ hbits =>
    rw [hbits] at hset
    exact absurd hset hclear
  | requested => exact absurd hset hclear
  | @approved approver shareId i _ hi _ hbits =>
    rw [hbits, capTableCheck_grant] at hset
    obtain ⟨-, rfl, rfl⟩ | hset := hset
    · exact ⟨approver, shareId, i, rfl, hi, rfl, rfl⟩
    · exact absurd hset hclear
  | revoked _ _ hbits =>
    rw [hbits, capTableCheck_revoke] at hset
    exact absurd hset.2 hclear

/-- A call that reports an error has changed neither table. -/
theorem Ends.error (h : Ends s op t res) (herr : res ≠ .ok) :
    t.shares = s.shares ∧ t.caps.bits = s.caps.bits := by
  cases h with
  | refused _ hshares hbits => exact ⟨hshares, hbits⟩
  | _ => exact absurd rfl herr

end Ends

/-- **CONFINEMENT**: in every run, whoever rewrites the capability table in between, a broker call
    sets a clear bit only as the approval by its owner of a share that was requested while the
    owner held the capability; shares move along the edges of their life only; and an error leaves
    both tables. -/
theorem broker_confined (k : Caps) (ops : List SysOp) :
    let s := run sysStep (capBrokerReset k) ops
    (∀ c r cap, capTableCheck s.caps.bits r cap ≠ .ok →
        capTableCheck (invoke s c).1.caps.bits r cap = .ok →
        ∃ owner shareId i, c = .approve owner shareId ∧ brokerShareAt shareId = some i
          ∧ (s.shares i).state = .requested ∧ (s.shares i).ownerSubjectId = owner
          ∧ (s.shares i).recipientSubjectId = r ∧ (s.shares i).capabilityId = cap
          ∧ Asked k ops i owner r cap)
      ∧ (∀ op i, ((sysStep s op).shares i).state = (s.shares i).state
          ∨ Moves (s.shares i).state ((sysStep s op).shares i).state)
      ∧ ∀ c, (invoke s c).2.isError = true →
          (invoke s c).1.shares = s.shares ∧ (invoke s c).1.caps.bits = s.caps.bits := by
  intro s
  have hasked : SharesAsked k ops s := sharesAsked_run k ops
  refine ⟨?_, ?_, ?_⟩
  · intro c _ _ hclear hset
    obtain he | ⟨op, rfl, he⟩ := invoke_cases s c
    · rw [he] at hset
      exact absurd hset hclear
    · rw [he] at hset
      obtain ⟨approver, shareId, i, rfl, ⟨hslot, hst, howner, -⟩, hr, hcap⟩ :=
        (ends_of_step _ op).sets hclear hset
      have hi := hasked i (by rw [hst]; decide)
      rw [← howner, hr, hcap] at hi
      exact ⟨approver, shareId, i, rfl, hslot, hst, howner.symm, hr, hcap, hi⟩
  · exact sysStep_moves s
  · intro c herr
    obtain he | ⟨op, rfl, he⟩ := invoke_cases s c
    · rw [he]; exact ⟨rfl, rfl⟩
    · rw [he] at herr ⊢
      exact (ends_of_step _ op).error (of_decide_eq_true herr)

end CapBroker
