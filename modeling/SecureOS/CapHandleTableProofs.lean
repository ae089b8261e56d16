import SecureOS.CapHandleStepProofs
import SecureOS.Lib.MachineRunProofs
import Mathlib.Order.Interval.Finset.Nat

/-! # The handle table keeps a set of granted pairs

Over every run of the handle API from reset the 64 rows represent a set of `(owner, capability)`
pairs. -/

namespace CapHandle

open Capability MachineRun Function Option Finset

/-- The table's own invariant. -/
structure Wf (t : Table) : Prop where
  /-- a pair has at most one live row -/
  unique : ∀ i j, (t i).live = true → (t j).live = true →
    (t i).ownerSubject = (t j).ownerSubject → (t i).capId = (t j).capId → i = j
  /-- a live row holds ids the argument checks let through -/
  valid : ∀ i, (t i).live = true →
    capHandleSubjectValid (t i).ownerSubject = true
      ∧ capHandleCapIdValid (t i).capId = true

variable {t : Table} {op : HandleOp} {i : Fin 64} {a : GrantArgs} {owner cap : Nat}
  {parent : BitVec 32}

/-- A row live after a call was live and untouched, or is the fresh one. -/
theorem live_step_cases (h : (step t op i).live) : ((t i).live ∧ step t op i = t i)
      ∨ ∃ a, fresh t op = some (i, a) ∧ step t op i = a.row (t i) := by
  rcases step_row_cases t op i with he | ⟨-, -, -, he⟩ | ⟨-, a, hf, he⟩
  · exact Or.inl ⟨he ▸ h, he⟩
  · rw [he, live_revoke] at h; exact nomatch h
  · exact Or.inr ⟨a, hf, he⟩

theorem findLive_eq_none_iff (t : Table) (owner cap : Nat) :
    capHandleFindLive t owner cap = none ↔ ∀ i, (t i).isLiveFor owner cap = false :=
  Fin.find?_eq_none_iff

theorem fresh_no_live (h : fresh t op = some (i, a)) (j : Fin 64) (hl : (t j).live) :
    ¬ ((t j).ownerSubject = a.owner ∧ (t j).capId = a.cap) := by
  intro hp
  have hj := (findLive_eq_none_iff t a.owner a.cap).mp (fresh_spec h).2.2.1 j
  exact nomatch hj.symm.trans ((isLiveFor_iff _ _ _).mpr ⟨hl, hp⟩)

theorem live_resetRow : resetRow.live = false := by decide

theorem wf_reset : Wf capHandleTableReset where
  unique := fun _ _ h => nomatch live_resetRow.symm.trans h
  valid := fun _ h => nomatch live_resetRow.symm.trans h

theorem wf_step (hw : Wf t) (op : HandleOp) : Wf (step t op) where
  unique := by
    intro i j hi hj ho hc
    rcases live_step_cases hi with ⟨hli, hei⟩ | ⟨_, hfi, hei⟩
    · rcases live_step_cases hj with ⟨hlj, hej⟩ | ⟨_, hfj, hej⟩
      · rw [hei, hej] at ho hc
        exact hw.unique i j hli hlj ho hc
      · rw [hei, hej] at ho hc
        exact absurd ⟨ho, hc⟩ (fresh_no_live hfj i hli)
    · rcases live_step_cases hj with ⟨hlj, hej⟩ | ⟨_, hfj, hej⟩
      · rw [hei, hej] at ho hc
        exact absurd ⟨ho.symm, hc.symm⟩ (fresh_no_live hfi j hlj)
      · exact congrArg Prod.fst (some.inj (hfi.symm.trans hfj))
  valid := by
    intro i hi
    rcases live_step_cases hi with ⟨hli, hei⟩ | ⟨_, hfi, hei⟩
    · rw [hei]; exact hw.valid i hli
    · have hv := (fresh_spec hfi).2.1
      simp only [GrantArgs.valid, Bool.and_eq_true] at hv
      rw [hei]
      exact ⟨hv.1.1, hv.2⟩

theorem wf_run (hw : Wf t) (ops : List HandleOp) : Wf (run step t ops) :=
  run_inv_all (I := Wf) (fun _ op h => wf_step h op) ops t hw

/-- The pair has a live row. -/
def Granted (t : Table) (owner cap : Nat) : Prop := ∃ i, (t i).isLiveFor owner cap = true

/-- On a well-formed table the live row of a pair is the one the scan finds. -/
theorem findLive_of_isLiveFor (hw : Wf t) (h : (t i).isLiveFor owner cap) :
    capHandleFindLive t owner cap = some i := by
  obtain ⟨hl, ho, hc⟩ := (isLiveFor_iff _ _ _).mp h
  refine Fin.find?_eq_some_iff.mpr ⟨h, ?_⟩
  intro j hj
  cases hb : (t j).isLiveFor owner cap with
  | false => rfl
  | true =>
    obtain ⟨hl', ho', hc'⟩ := (isLiveFor_iff _ _ _).mp hb
    have hij := hw.unique j i hl' hl (ho'.trans ho.symm) (hc'.trans hc.symm)
    exact absurd hij (Fin.ne_of_lt hj)

theorem tableCheck_ok_iff (hw : Wf t) (owner cap : Nat) :
    capHandleTableCheck t owner cap = .ok ↔ Granted t owner cap := by
  constructor
  · intro _
    obtain hf | ⟨i, hf⟩ := eq_none_or_eq_some (capHandleFindLive t owner cap)
    · grind [capHandleTableCheck]
    · exact ⟨i, findLive_live hf⟩
  · rintro ⟨i, hi⟩
    obtain ⟨hl, rfl, rfl⟩ := (isLiveFor_iff _ _ _).mp hi
    simp [capHandleTableCheck, hw.valid i hl, findLive_of_isLiveFor hw hi]

/-- The grant call reported success: OK, or a handle that is not null. -/
def reportsGrant (t : Table) : HandleOp → Bool
  | .tableGrant owner granter cap => (capHandleTableGrant t owner granter cap).2 = .ok
  | .grant owner cap => (capHandleGrant t owner cap).2 ≠ handleNull
  | .grantChild owner cap parent => (capHandleGrantChild t owner cap parent).2 ≠ handleNull
  | _ => false

/-- The cascade from an accepted handle visits the pair's live row. -/
def cascadesOver (t : Table) (h : BitVec 32) (owner cap : Nat) : Bool :=
  match resolve t h with
  | none => false
  | some root => (capHandleFindLive t owner cap).any (capHandleVisitedGet (subtreeVisited t root))

/-- The revoking call is on this pair: it named the pair with success, its owner, or ran over its
    live row. -/
def revokesPair (t : Table) : HandleOp → Nat → Nat → Bool
  | .tableRevoke owner cap, o, c => owner = o ∧ cap = c ∧ (capHandleTableRevoke t owner cap).2 = .ok
  | .revoke h, o, c =>
    (capHandleRevoke t h).2 = .ok ∧ capHandleOwner t h = o ∧ capGateCheckHandle t h c
  | .revokeSubject owner, o, _ => owner = o ∧ capHandleSubjectValid owner
  | .revokeSubtree h, o, c => cascadesOver t h o c
  | _, _, _ => false

/-- What a call effects on a pair: a grant, a revocation, or nothing. -/
def effect (t : Table) (op : HandleOp) (owner cap : Nat) : Option Bool :=
  match op.grantArgs with
  | some a => if a.owner = owner ∧ a.cap = cap ∧ reportsGrant t op then some true else none
  | none => if revokesPair t op owner cap then some false else none

/-- The last effect of a run on a pair. -/
def lastEffect : Table → List HandleOp → Nat → Nat → Option Bool → Option Bool
  | _, [], _, _, last => last
  | t, op :: ops, owner, cap, last =>
    lastEffect (step t op) ops owner cap ((effect t op owner cap).or last)

/-- A grant reports success when the pair is live already or a slot is free. -/
theorem reportsGrant_iff (ha : op.grantArgs = some a) : reportsGrant t op
      ↔ a.valid ∧ ((capHandleFindLive t a.owner a.cap).isSome
          ∨ (capHandleFindFreeSlot t).isSome) := by
  have hchild : ∀ owner cap parent, (capHandleGrantChild t owner cap parent).2 ≠ handleNull
        ↔ (⟨owner, owner, cap, parent⟩ : GrantArgs).valid = true
          ∧ ((capHandleFindLive t owner cap).isSome
            ∨ (capHandleFindFreeSlot t).isSome) := by
    intro owner cap parent
    rw [capHandleGrantChild, GrantArgs.valid]
    grind [fromRow_ne_null]
  cases op with
  | tableGrant =>
    obtain rfl := some.inj ha
    rw [reportsGrant, capHandleTableGrant, GrantArgs.valid]
    grind
  | grant owner cap =>
    obtain rfl := some.inj ha
    rw [reportsGrant, decide_eq_true_eq]
    exact hchild owner cap handleNull
  | grantChild owner cap parent =>
    obtain rfl := some.inj ha
    rw [reportsGrant, decide_eq_true_eq]
    exact hchild owner cap parent
  | _ => cases ha

/-- A call that asks for no grant writes no fresh row. -/
theorem fresh_eq_none_of_grantArgs (ha : op.grantArgs = none) : fresh t op = none := by
  rw [fresh, ha]

/-- A revoking call is one on a granted pair exactly when it revokes the pair's live row. -/
theorem revokesPair_iff (hw : Wf t) (hi : (t i).isLiveFor owner cap) :
    revokesPair t op owner cap ↔ revokedBy t op i := by
  have hfind := findLive_of_isLiveFor hw hi
  obtain ⟨hl, ho, hc⟩ := (isLiveFor_iff _ _ _).mp hi
  obtain ⟨hvo, hvc⟩ := hw.valid i hl
  rw [ho] at hvo
  rw [hc] at hvc
  cases op with
  | tableRevoke =>
    rw [revokesPair, decide_eq_true_eq, revokedBy]
    constructor
    · rintro ⟨rfl, rfl, -⟩
      simp [hvo, hvc, hfind]
    · intro hr
      rw [Bool.and_eq_true, decide_eq_true_eq] at hr
      obtain ⟨-, ho', hc'⟩ := (isLiveFor_iff _ _ _).mp (findLive_live hr.2)
      obtain rfl := ho'.symm.trans ho
      obtain rfl := hc'.symm.trans hc
      exact ⟨rfl, rfl, by simp [capHandleTableRevoke, hvo, hvc, hfind]⟩
  | revoke h =>
    have hspec := capHandleRevoke_spec t h
    rw [revokesPair, decide_eq_true_eq, capHandleOwner_eq, capGateCheckHandle_iff,
      revokedBy, decide_eq_true_eq]
    constructor
    · rintro ⟨-, ho', j, hj, -, hc'⟩
      simp only [hj] at ho'
      have hlj := ((resolve_eq_some_iff t h j).mp hj).2.2.1
      rw [hj, hw.unique j i hlj hl (ho'.trans ho.symm) (hc'.trans hc.symm)]
    · intro hr
      simp only [hr] at hspec
      refine ⟨by rw [hspec], by simp only [hr]; exact ho, i, hr, hvc, hc⟩
  | revokeSubject =>
    rw [revokesPair, decide_eq_true_eq, revokedBy, Bool.and_eq_true, beq_iff_eq, ho]
    exact ⟨fun h => ⟨h.2, h.1.symm⟩, fun h => ⟨h.2.symm, h.1⟩⟩
  | revokeSubtree h =>
    show cascadesOver t h owner cap = true ↔ _
    rw [cascadesOver, hfind]
    obtain hr | ⟨_, hr⟩ := eq_none_or_eq_some (resolve t h) <;>
      simp [hr, revokedBy]
  | _ => simp [revokesPair, revokedBy]

/-- A grant that writes no fresh row changes nothing. -/
theorem step_eq_self_of_not_fresh (ha : op.grantArgs = some a) (hf : fresh t op = none) :
    step t op = t := by
  have hb : revokedBy t op = fun _ => false := by
    funext i
    cases op <;> simp_all [revokedBy, HandleOp.grantArgs]
  rw [step_eq, hf, hb, revokeWhere_none]

/-- After a grant call the granted pairs are those of before and, if it succeeded, its own. -/
theorem granted_step_grant (ha : op.grantArgs = some a) (owner cap : Nat) :
    Granted (step t op) owner cap ↔ (a.owner = owner ∧ a.cap = cap ∧ reportsGrant t op)
        ∨ Granted t owner cap := by
  have hrep := reportsGrant_iff (t := t) ha
  cases hf : fresh t op with
  | none =>
    rw [step_eq_self_of_not_fresh ha hf]
    refine ⟨Or.inr, ?_⟩
    rintro (⟨rfl, rfl, hg⟩ | h)
    · -- success without a fresh row: the pair was live already
      obtain ⟨hv, hlf⟩ := hrep.mp hg
      obtain hl | ⟨i, hl⟩ := eq_none_or_eq_some (capHandleFindLive t a.owner a.cap)
      · rw [hl] at hlf
        obtain ⟨i, hi⟩ := isSome_iff_exists.mp (hlf.resolve_left (by simp))
        simp [fresh, ha, hl, hv, hi] at hf
      · exact ⟨i, findLive_live hl⟩
    · exact h
  | some ib =>
    obtain ⟨i, _⟩ := ib
    obtain ⟨hab, hv, -, hi⟩ := fresh_spec hf
    obtain rfl := some.inj (ha.symm.trans hab)
    have hstep : step t op = update t i (a.row (t i)) := by rw [step_eq, hf]
    have hg : reportsGrant t op := hrep.mpr ⟨hv, Or.inr (by rw [hi]; rfl)⟩
    rw [hstep]
    constructor
    · rintro ⟨j, hj⟩
      by_cases hji : j = i
      · subst hji
        rw [update_self] at hj
        obtain ⟨-, ho, hc⟩ := (isLiveFor_iff _ _ _).mp hj
        exact Or.inl ⟨ho, hc, hg⟩
      · rw [update_of_ne hji] at hj
        exact Or.inr ⟨j, hj⟩
    · rintro (⟨rfl, rfl, -⟩ | ⟨j, hj⟩)
      · refine ⟨i, ?_⟩
        rw [update_self]
        exact (isLiveFor_iff _ _ _).mpr ⟨live_grantRow a _, rfl, rfl⟩
      · have hl := ((isLiveFor_iff _ _ _).mp hj).1
        have hji : j ≠ i := by
          rintro rfl
          rw [findFreeSlot_not_live hi] at hl
          exact Bool.false_ne_true hl
        exact ⟨j, by rw [update_of_ne hji]; exact hj⟩

/-- After a revoking call the granted pairs are those of before that it did not take. -/
theorem granted_step_revoke (hw : Wf t) (ha : op.grantArgs = none) (owner cap : Nat) :
    Granted (step t op) owner cap ↔ Granted t owner cap ∧ revokesPair t op owner cap = false := by
  have hstep : step t op = revokeWhere t (revokedBy t op) := by
    rw [step_eq, fresh_eq_none_of_grantArgs ha]
  rw [hstep]
  constructor
  · rintro ⟨i, hi⟩
    rw [revokeWhere] at hi
    split_ifs at hi with hb
    · exact absurd ((live_revoke (t i)).symm.trans ((isLiveFor_iff _ _ _).mp hi).1)
        Bool.false_ne_true
    · rw [((isLiveFor_iff _ _ _).mp hi).1, Bool.and_true] at hb
      exact ⟨⟨i, hi⟩, by rwa [← Bool.not_eq_true, revokesPair_iff hw hi]⟩
  · rintro ⟨⟨i, hi⟩, hno⟩
    rw [← Bool.not_eq_true, revokesPair_iff hw hi] at hno
    exact ⟨i, by simpa [revokeWhere, hno] using hi⟩

/-- **ONE CALL ON ONE PAIR**: granted afterwards exactly when the call granted it, or left it alone
    and it was. -/
theorem granted_step (hw : Wf t) (op : HandleOp) (owner cap : Nat) : Granted (step t op) owner cap
      ↔ match effect t op owner cap with
        | some b => b
        | none => Granted t owner cap := by
  cases ha : op.grantArgs with
  | some =>
    rw [granted_step_grant ha, effect, ha]
    split_ifs <;> grind
  | none =>
    rw [granted_step_revoke hw ha, effect, ha]
    cases h : revokesPair t op owner cap <;> simp

/-- **A WHOLE RUN ON ONE PAIR**: granted at the end exactly when the last effect was a grant. -/
theorem granted_run (owner cap : Nat) :
    ∀ (ops : List HandleOp) (t : Table) (last : Option Bool), Wf t →
      (Granted t owner cap ↔ last = some true) → (Granted (run step t ops) owner cap
          ↔ lastEffect t ops owner cap last = some true) := by
  intro ops
  induction ops with
  | nil => intro t last _ h; exact h
  | cons op _ ih =>
    intro t _ hw h
    refine ih (step t op) _ (wf_step hw op) ?_
    rw [granted_step hw]
    cases he : effect t op owner cap with
    | some => simp
    | none => simpa using h

/-- The call leaves the handle's row live, if it was. -/
def KeepsRow (h : BitVec 32) (t : Table) (op : HandleOp) : Prop :=
  ∀ i : Fin 64, i.val = (capHandleSlot h).toNat → (t i).live → (step t op i).live

/-- A row no call of the run revokes is the same row at its end. -/
theorem row_kept (hi : i.val = (capHandleSlot h).toNat)
    (ops : List HandleOp) (hl : (t i).live) (hk : Along step (KeepsRow h) t ops) :
    run step t ops i = t i := by
  refine run_inv (I := fun t' => t' i = t i) (fun t' op ht hk => ?_) ops t rfl hk
  have hl' : (t' i).live := ht ▸ hl
  exact (step_row_kept hl' (hk i hi hl')).trans ht

/-- **A GRANT** refuses, finds the pair's live row, finds no room or writes a fresh row. -/
inductive Grants (t : Table) (owner cap : Nat) (parent : BitVec 32) :
    Table × BitVec 32 → Prop where
  | refused (hno : ¬ (capHandleSubjectValid owner ∧ capHandleCapIdValid cap)) :
      Grants t owner cap parent (t, handleNull)
  | found {i : Fin 64} (ho : capHandleSubjectValid owner) (hc : capHandleCapIdValid cap)
      (hl : capHandleFindLive t owner cap = some i) :
      Grants t owner cap parent (t, capHandleFromRow t i)
  | full (hl : capHandleFindLive t owner cap = none) (hf : capHandleFindFreeSlot t = none) :
      Grants t owner cap parent (t, handleNull)
  | took {i : Fin 64} (ho : capHandleSubjectValid owner) (hc : capHandleCapIdValid cap)
      (hl : capHandleFindLive t owner cap = none) (hf : capHandleFindFreeSlot t = some i) :
      Grants t owner cap parent (update t i ((t i).grant owner owner cap parent),
        capHandleFromRow (update t i ((t i).grant owner owner cap parent)) i)

theorem grantChild_grants (t : Table) (owner cap : Nat) (parent : BitVec 32) :
    Grants t owner cap parent (capHandleGrantChild t owner cap parent) := by
  fun_cases capHandleGrantChild with
  | case1 hno => exact .refused (by grind)
  | case2 hv i hl => exact .found (by grind) (by grind) hl
  | case3 _ hl hf => exact .full hl hf
  | case4 hv hl i hf => exact .took (by grind) (by grind) hl hf

section

variable (h : Grants t owner cap parent out)
include h

/-- A successful grant: the pair's row is live with the granted ids, and the handle is its own. -/
theorem Grants.row (hg : out.2 ≠ handleNull) :
    ∃ i, (out.1 i).isLiveFor owner cap ∧ out.2 = capHandleFromRow out.1 i
      ∧ capHandleSubjectValid owner ∧ capHandleCapIdValid cap := by
  cases h with
  | refused | full => exact absurd rfl hg
  | @found i ho hc hl => exact ⟨i, findLive_live hl, rfl, ho, hc⟩
  | @took i ho hc =>
    refine ⟨i, ?_, rfl, ho, hc⟩
    show (update t i _ i).isLiveFor owner cap = true
    rw [update_self]
    exact (isLiveFor_iff _ _ _).mpr ⟨live_grantRow ⟨owner, owner, cap, parent⟩ _, rfl, rfl⟩

/-- A grant that returns no handle writes nothing. -/
theorem Grants.null (hg : out.2 = handleNull) : out.1 = t := by
  cases h with
  | took => exact absurd hg (fromRow_ne_null _ _)
  | _ => rfl

/-- A grant for a pair without a live row writes one with its parent, and returns its handle. -/
theorem Grants.fresh (hnew : capHandleFindLive t owner cap = none) (hg : out.2 ≠ handleNull) :
    ∃ i, (out.1 i).parentHandle = parent ∧ resolve out.1 out.2 = some i := by
  cases h with
  | refused | full => exact absurd rfl hg
  | found _ _ hl => exact nomatch hnew.symm.trans hl
  | @took i =>
    refine ⟨i, ?_, resolve_fromRow ?_⟩
    · show (update t i _ i).parentHandle = parent
      rw [update_self]
      rfl
    · show (update t i _ i).live = true
      rw [update_self]
      exact live_grantRow ⟨owner, owner, cap, parent⟩ _

/-- The handle of a successful grant passes for its capability and names the owner. -/
theorem Grants.answers (hg : out.2 ≠ handleNull) :
    capGateCheckHandle out.1 out.2 cap ∧ capHandleOwner out.1 out.2 = owner := by
  obtain ⟨i, hlive, he, -, hc⟩ := h.row hg
  obtain ⟨hl, ho, hcap⟩ := (isLiveFor_iff _ _ _).mp hlive
  have hr := resolve_fromRow hl
  rw [he, capGateCheckHandle_iff, capHandleOwner_eq, hr]
  exact ⟨⟨i, rfl, hc, hcap⟩, ho⟩

/-- A grant takes a dead row, so handles that pass go on passing. -/
theorem Grants.gate (hg : capGateCheckHandle t v c) : capGateCheckHandle out.1 v c := by
  rw [capGateCheckHandle_iff] at hg ⊢
  obtain ⟨i, hi, hc, hcap⟩ := hg
  have hl := ((resolve_eq_some_iff t v i).mp hi).2.2.1
  have hsame : out.1 i = t i := by
    cases h with
    | took _ _ _ hfree =>
      have := findFreeSlot_not_live hfree
      exact update_of_ne (by grind) ..
    | _ => rfl
  rw [resolve_eq_some_iff] at hi
  exact ⟨i, (resolve_eq_some_iff ..).mpr (hsame.symm ▸ hi), hc, hsame.symm ▸ hcap⟩

end

/-- A live row's own handle passes for its capability only, and names its owner. -/
theorem fromRow_answers (hw : Wf t) (h : (t i).isLiveFor owner cap) :
    (∀ c, capGateCheckHandle t (capHandleFromRow t i) c ↔ c = cap)
      ∧ capHandleOwner t (capHandleFromRow t i) = owner := by
  obtain ⟨hl, rfl, rfl⟩ := (isLiveFor_iff _ _ _).mp h
  have hr := resolve_fromRow hl
  constructor
  · intro _
    rw [capGateCheckHandle_iff, hr]
    constructor
    · rintro ⟨_, hj, -, hc⟩
      obtain rfl := some.inj hj
      exact hc.symm
    · rintro rfl
      exact ⟨i, rfl, (hw.valid i hl).2, rfl⟩
  · rw [capHandleOwner_eq, hr]

/-- **A GRANTED HANDLE LASTS UNTIL ITS ROW IS REVOKED**, and granting the pair again meanwhile
    returns the same handle and changes nothing. -/
theorem handle_kept (hw : Wf t) (he : capHandleGrantChild t owner cap parent = (t1, h))
    (hne : h ≠ handleNull) (ops : List HandleOp) (hk : Along step (KeepsRow h) t1 ops) :
    (∀ c, capGateCheckHandle (run step t1 ops) h c ↔ c = cap)
      ∧ capHandleOwner (run step t1 ops) h = owner
      ∧ (∀ parent', capHandleGrantChild (run step t1 ops) owner cap parent' = (run step t1 ops, h))
      ∧ (∀ granter, capHandleSubjectValid granter →
          capHandleTableGrant (run step t1 ops) owner granter cap = (run step t1 ops, .ok)) := by
  have hw1 : Wf (capHandleGrantChild t owner cap parent).1 :=
    wf_step hw (.grantChild owner cap parent)
  rw [he] at hw1
  obtain ⟨i, hi, hh, hvo, hvc⟩ := Grants.row (he ▸ grantChild_grants t owner cap parent) hne
  obtain rfl : h = capHandleFromRow t1 i := hh
  have hw2 := wf_run hw1 ops
  have hrow : run step t1 ops i = t1 i :=
    row_kept (slot_fromRow t1 i).symm ops ((isLiveFor_iff _ _ _).mp hi).1 hk
  generalize run step t1 ops = t2 at *
  have hi2 : (t2 i).isLiveFor owner cap := hrow.symm ▸ hi
  have hsame : capHandleFromRow t1 i = capHandleFromRow t2 i := by
    rw [capHandleFromRow, capHandleFromRow, hrow]
  have hl := findLive_of_isLiveFor hw2 hi2
  rw [hsame]
  refine ⟨(fromRow_answers hw2 hi2).1, (fromRow_answers hw2 hi2).2, ?_, ?_⟩
  · intro _
    simp [capHandleGrantChild, hvo, hvc, hl]
  · intro _ hvg
    simp [capHandleTableGrant, hvo, hvc, hvg, hl]

/-- **REVOKING A SUBJECT** stops exactly the handles that name it. -/
theorem gate_revokeSubject (hs : capHandleSubjectValid s) (h : BitVec 32)
    (c : Nat) : capGateCheckHandle (capHandleRevokeSubject t s).1 h c
      ↔ capGateCheckHandle t h c ∧ capHandleOwner t h ≠ s := by
  -- the rows of the subject stop answering, the others are untouched
  have hres : ∀ i, resolve (capHandleRevokeSubject t s).1 h = some i
      ↔ resolve t h = some i ∧ (t i).ownerSubject ≠ s := by
    intro i
    rw [resolve_eq_some_iff, resolve_eq_some_iff, capHandleRevokeSubject_table, hs]
    grind [revokeWhere, live_revoke]
  have hcap : ∀ i, ((capHandleRevokeSubject t s).1 i).capId = (t i).capId := by
    intro _
    rw [capHandleRevokeSubject_table]
    grind [revokeWhere, Row.revoke]
  rw [capGateCheckHandle_iff, capGateCheckHandle_iff, capHandleOwner_eq]
  grind

/-- Every pair the argument checks let through. -/
def allPairs : Finset (Nat × Nat) :=
  Finset.range CapTable.capTableMaxSubjects ×ˢ Finset.Icc capConsoleWrite capIpcRecv

theorem mem_allPairs (owner cap : Nat) : (owner, cap) ∈ allPairs
      ↔ capHandleSubjectValid owner ∧ capHandleCapIdValid cap := by
  simp only [allPairs, mem_product, mem_range, mem_Icc,
    capHandleSubjectValid, capHandleCapIdValid, Bool.and_eq_true, decide_eq_true_eq]

/-- **LIVE COUNT**: as many live rows as granted pairs. -/
theorem liveCount_eq (hw : Wf t) : capHandleTableLiveCount t
      = (allPairs.filter (fun p => capHandleTableCheck t p.1 p.2 = .ok)).card := by
  rw [capHandleTableLiveCount, TableScan.foldl_count (fun i => (t i).live)]
  -- a live row is its pair
  refine card_bij (fun i _ => ((t i).ownerSubject, (t i).capId)) ?_ ?_ ?_
  · intro i hi
    have hl : (t i).live := (mem_filter.mp hi).2
    refine mem_filter.mpr ⟨(mem_allPairs _ _).mpr (hw.valid i hl), ?_⟩
    exact (tableCheck_ok_iff hw _ _).mpr ⟨i, (isLiveFor_iff _ _ _).mpr ⟨hl, rfl, rfl⟩⟩
  · intro i hi j hj hij
    obtain ⟨ho, hc⟩ := Prod.mk.inj hij
    exact hw.unique i j (mem_filter.mp hi).2 (mem_filter.mp hj).2 ho hc
  · rintro ⟨_, _⟩ hp
    obtain ⟨i, hi⟩ := (tableCheck_ok_iff hw _ _).mp (mem_filter.mp hp).2
    obtain ⟨hl, ho, hc⟩ := (isLiveFor_iff _ _ _).mp hi
    exact ⟨i, mem_filter.mpr ⟨mem_univ i, hl⟩, Prod.ext ho hc⟩

theorem not_granted_reset (owner cap : Nat) : ¬ Granted capHandleTableReset owner cap := by
  rintro ⟨_, hi⟩
  exact nomatch live_resetRow.symm.trans ((isLiveFor_iff _ _ _).mp hi).1

/-- After any run the check of a pair reads its last effect. -/
theorem tableCheck_run (ops : List HandleOp) (owner cap : Nat) :
    capHandleTableCheck (run step capHandleTableReset ops) owner cap = .ok
      ↔ lastEffect capHandleTableReset ops owner cap none = some true := by
  rw [tableCheck_ok_iff (wf_run wf_reset ops)]
  refine granted_run owner cap ops capHandleTableReset none wf_reset ?_
  simp [not_granted_reset]

/-- **THE HANDLE TABLE**: over every run, one live row per pair; the check answers by the pair's
    last effective call; a granted handle passes for its own capability and owner until its row is
    revoked; and the live rows are counted by the granted pairs. -/
theorem handleTable_represents (ops : List HandleOp) :
    let t := run step capHandleTableReset ops
    (∀ i j, (t i).live = true → (t j).live = true → (t i).ownerSubject = (t j).ownerSubject →
        (t i).capId = (t j).capId → i = j)
      ∧ (∀ owner cap, capHandleTableCheck t owner cap = .ok
            ↔ lastEffect capHandleTableReset ops owner cap none = some true)
      ∧ (∀ owner cap parent t1 h, capHandleGrantChild t owner cap parent = (t1, h) →
          h ≠ handleNull → ∀ later, Along step (KeepsRow h) t1 later →
            (∀ c, capGateCheckHandle (run step t1 later) h c = true ↔ c = cap)
              ∧ capHandleOwner (run step t1 later) h = owner
              ∧ (∀ parent', capHandleGrantChild (run step t1 later) owner cap parent'
                  = (run step t1 later, h))
              ∧ (∀ granter, capHandleSubjectValid granter = true →
                  capHandleTableGrant (run step t1 later) owner granter cap
                    = (run step t1 later, .ok)))
      ∧ capHandleTableLiveCount t = (allPairs.filter (fun p =>
          lastEffect capHandleTableReset ops p.1 p.2 none = some true)).card := by
  intro t
  have hw : Wf t := wf_run wf_reset ops
  refine ⟨hw.unique, tableCheck_run ops, ?_, ?_⟩
  · intro _ _ _ _ _ he hne later hk
    exact handle_kept hw he hne later hk
  · rw [liveCount_eq hw]
    simp only [t, tableCheck_run]

/-! ## Where a handle comes from -/

/-- Row `i` is as the call `op` after `pre` left it, from then on through `post`. -/
def KeptSince (pre : List HandleOp) (op : HandleOp) (post : List HandleOp) (i : Fin 64) : Prop :=
  ∀ mid, mid <+: post → run step capHandleTableReset (pre ++ op :: mid) i
    = step (run step capHandleTableReset pre) op i

/-- A live row is as a grant of the run left it, after every call since. -/
theorem live_row_granted (i : Fin 64) : ∀ ops, (run step capHandleTableReset ops i).live →
    ∃ pre op post a, ops = pre ++ op :: post
      ∧ fresh (run step capHandleTableReset pre) op = some (i, a) ∧ KeptSince pre op post i := by
  intro ops
  induction ops using List.reverseRecOn with
  | nil =>
    intro hl
    exact nomatch live_resetRow.symm.trans hl
  | append_singleton ops op ih =>
    intro hl
    rw [run_append] at hl
    rcases live_step_cases hl with ⟨hold, hsame⟩ | ⟨a, hf, -⟩
    · obtain ⟨pre, op', post, a, rfl, hf, hkept⟩ := ih hold
      refine ⟨pre, op', post ++ [op], a, by simp, hf, ?_⟩
      intro mid hmid
      rcases List.prefix_concat_iff.mp hmid with rfl | hmid
      · rw [← hkept post List.prefix_rfl, ← hsame, ← List.cons_append, ← List.append_assoc,
          run_append]
        rfl
      · exact hkept mid hmid
    · refine ⟨ops, op, [], a, rfl, hf, ?_⟩
      rintro _ ⟨_, hnil⟩
      rw [(List.append_eq_nil_iff.mp hnil).1, run_append]
      rfl

/-- **HANDLES ARE NOT MADE UP**: a value passes the gate exactly if a grant of the run issued it for
    that capability, and no later call of the run has left its row otherwise. -/
theorem gate_iff_issued (ops : List HandleOp) (v : BitVec 32) (c : Nat) :
    capGateCheckHandle (run step capHandleTableReset ops) v c = true
      ↔ ∃ pre op post i a, ops = pre ++ op :: post
        ∧ fresh (run step capHandleTableReset pre) op = some (i, a) ∧ a.cap = c
        ∧ resolve (step (run step capHandleTableReset pre) op) v = some i
        ∧ KeptSince pre op post i := by
  have hwritten : ∀ {t op i a}, fresh t op = some (i, a) → step t op i = a.row (t i) := by
    intro _ _ _ _ hf
    rw [step_eq, hf]
    exact update_self ..
  constructor
  · intro h
    obtain ⟨i, hi, -, hcap⟩ := (capGateCheckHandle_iff ..).mp h
    rw [resolve_eq_some_iff] at hi
    obtain ⟨pre, op, post, a, rfl, hf, hkept⟩ := live_row_granted i ops hi.2.2.1
    rw [hkept post List.prefix_rfl] at hi hcap
    rw [hwritten hf] at hcap
    exact ⟨pre, op, post, i, a, rfl, hf, hcap, (resolve_eq_some_iff ..).mpr hi, hkept⟩
  · rintro ⟨pre, op, post, i, a, rfl, hf, rfl, hi, hkept⟩
    have hrow := hkept post List.prefix_rfl
    rw [resolve_eq_some_iff, ← hrow] at hi
    have hvalid := (fresh_spec hf).2.1
    rw [GrantArgs.valid, Bool.and_eq_true] at hvalid
    refine (capGateCheckHandle_iff ..).mpr ⟨i, (resolve_eq_some_iff ..).mpr hi, hvalid.2, ?_⟩
    rw [hrow, hwritten hf]
    rfl

end CapHandle
