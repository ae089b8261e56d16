import SecureOS.CapHandleModel
import SecureOS.Lib.ParentSweepProofs
import SecureOS.Lib.TableScanProofs

/-! # What one call does to the handle table

Everything later proofs need to know about the code of `cap_handle.c`.

* `step_eq` — every call either writes one fresh grant (`fresh`) or revokes
  a set of live rows (`revokedBy`). -/

namespace CapHandle

open Capability Function

/-! ## Packed handles -/

theorem and_slotMask_toNat (x : BitVec 32) : (x &&& slotMask).toNat = x.toNat % 65536 := by
  rw [BitVec.toNat_and]
  exact Nat.and_two_pow_sub_one_eq_mod _ 16

theorem and_genMask_toNat (x : BitVec 32) : (x &&& genMask).toNat = x.toNat % 16384 := by
  rw [BitVec.toNat_and]
  exact Nat.and_two_pow_sub_one_eq_mod _ 14

theorem and_tagMask_toNat (x : BitVec 32) : (x &&& tagMask).toNat = x.toNat % 4 := by
  rw [BitVec.toNat_and]
  exact Nat.and_two_pow_sub_one_eq_mod _ 2

theorem capHandleSlot_toNat (h : BitVec 32) : (capHandleSlot h).toNat = h.toNat % 65536 := by
  rw [capHandleSlot, BitVec.toNat_setWidth, and_slotMask_toNat, BitVec.toNat_ushiftRight,
    Nat.shiftRight_zero]
  omega

theorem capHandleGeneration_toNat (h : BitVec 32) :
    (capHandleGeneration h).toNat = h.toNat / 65536 % 16384 := by
  rw [capHandleGeneration, BitVec.toNat_setWidth, and_genMask_toNat,
    BitVec.toNat_ushiftRight, Nat.shiftRight_eq_div_pow]
  omega

theorem capHandleTag_toNat (h : BitVec 32) : (capHandleTag h).toNat = h.toNat / 1073741824 := by
  rw [capHandleTag, BitVec.toNat_setWidth, and_tagMask_toNat, BitVec.toNat_ushiftRight,
    Nat.shiftRight_eq_div_pow]
  omega

/-- A kernel handle of slot `i` with the row's generation. -/
theorem capHandleFromRow_toNat (t : Table) (i : Fin 64) : (capHandleFromRow t i).toNat
      = i.val + (t i).generation.toNat % 16384 * 65536 + 1073741824 := by
  have hslot : ((BitVec.ofNat 16 i.val).setWidth 32 &&& slotMask).toNat = i.val := by
    rw [and_slotMask_toNat, BitVec.toNat_setWidth, BitVec.toNat_ofNat]
    omega
  have hgen : ((((t i).generation &&& genMask).setWidth 16).setWidth 32 &&& genMask).toNat
      = (t i).generation.toNat % 16384 := by
    rw [and_genMask_toNat, BitVec.toNat_setWidth, BitVec.toNat_setWidth, and_genMask_toNat]
    omega
  have htag : (tagKernel.setWidth 32 &&& tagMask).toNat = 1 := rfl
  rw [capHandleFromRow, capHandlePack, BitVec.toNat_or, BitVec.toNat_or,
    BitVec.toNat_shiftLeft, BitVec.toNat_shiftLeft, BitVec.toNat_shiftLeft,
    hslot, hgen, htag, Nat.shiftLeft_zero]
  -- the three fields do not overlap, so the ors are sums
  generalize hg : (t i).generation.toNat % 16384 = g
  have h1 : g <<< 16 % 2 ^ 32 = g <<< 16 := by rw [Nat.shiftLeft_eq]; omega
  have h2 : i.val % 2 ^ 32 ||| g <<< 16 = g <<< 16 + i.val := by
    rw [Nat.mod_eq_of_lt (by omega), Nat.or_comm, Nat.shiftLeft_add_eq_or_of_lt (by omega)]
  have h3 : (g <<< 16 + i.val) ||| 1 <<< 30 % 2 ^ 32
      = 1 <<< 30 + (g <<< 16 + i.val) := by
    have hlt : g <<< 16 + i.val < 2 ^ 30 := by rw [Nat.shiftLeft_eq]; omega
    rw [Nat.or_comm]
    exact (Nat.shiftLeft_add_eq_or_of_lt hlt 1).symm
  rw [h1, h2]
  omega

theorem stale_eq_false_iff (r : Row) (h : BitVec 32) : r.stale h = false
      ↔ r.generation.toNat % 16384 = h.toNat / 65536 % 16384 := by
  have hw : ((capHandleGeneration h).setWidth 32).toNat = h.toNat / 65536 % 16384 := by
    rw [BitVec.toNat_setWidth, capHandleGeneration_toNat]
    omega
  rw [← hw, ← and_genMask_toNat, ← BitVec.toNat_eq, Row.stale]
  simp

/-! ## Accepted handles -/

/-- The slot a handle is accepted at: the tests that the gate, revoke, subtree and owner paths
    share. -/
def resolve (t : Table) (h : BitVec 32) : Option (Fin 64) :=
  if capHandleTag h ≠ tagKernel then none
  else if hs : (capHandleSlot h).toNat < tableMax then
    if (t ⟨(capHandleSlot h).toNat, hs⟩).live && !(t ⟨(capHandleSlot h).toNat, hs⟩).stale h then
      some ⟨(capHandleSlot h).toNat, hs⟩
    else none
  else none

theorem resolve_eq_some_iff (t : Table) (h : BitVec 32) (i : Fin 64) : resolve t h = some i
      ↔ capHandleTag h = tagKernel ∧ (capHandleSlot h).toNat = i.val
        ∧ (t i).live ∧ (t i).stale h = false := by
  rw [resolve]
  split_ifs with htag hs hrow
  · simp [htag]
  · obtain ⟨hlive, hst⟩ : _ ∧ _ := by simpa using hrow
    rw [Option.some.injEq]
    constructor
    · rintro rfl
      exact ⟨not_not.mp htag, rfl, hlive, hst⟩
    · rintro ⟨-, hslot, -⟩
      exact Fin.ext hslot
  · refine ⟨nofun, ?_⟩
    rintro ⟨-, hslot, hlive, hst⟩
    obtain rfl : ⟨(capHandleSlot h).toNat, hs⟩ = i := Fin.ext hslot
    simp [hlive, hst] at hrow
  · exact ⟨nofun, fun hi => absurd (hi.2.1 ▸ i.isLt) hs⟩

variable {t : Table} {i : Fin 64}

theorem resolve_fromRow (hlive : (t i).live) : resolve t (capHandleFromRow t i) = some i := by
  have hn := capHandleFromRow_toNat t i
  refine (resolve_eq_some_iff t _ i).mpr ⟨?_, ?_, hlive, ?_⟩
  · rw [BitVec.toNat_eq, capHandleTag_toNat, hn]
    show _ = 1
    omega
  · rw [capHandleSlot_toNat, hn]
    omega
  · rw [stale_eq_false_iff, hn]
    omega

theorem fromRow_ne_null (t : Table) (i : Fin 64) : capHandleFromRow t i ≠ handleNull := by
  intro h
  have hn := capHandleFromRow_toNat t i
  rw [h] at hn
  have : handleNull.toNat = 0 := rfl
  omega

theorem slot_fromRow (t : Table) (i : Fin 64) :
    (capHandleSlot (capHandleFromRow t i)).toNat = i.val := by
  rw [capHandleSlot_toNat, capHandleFromRow_toNat]
  omega

/-! ## The handle paths over `resolve` -/

theorem capGateCheckHandle_iff (t : Table) (h : BitVec 32) (c : Nat) : capGateCheckHandle t h c
      ↔ ∃ i, resolve t h = some i ∧ capHandleCapIdValid c ∧ (t i).capId = c := by
  simp only [capGateCheckHandle, capGateCheckHandleResult, resolve, decide_eq_true_eq]
  split_ifs <;> simp_all

theorem capHandleRevoke_spec (t : Table) (h : BitVec 32) :
    match resolve t h with
    | some i => capHandleRevoke t h = (update t i (t i).revoke, .ok)
    | none => (capHandleRevoke t h).1 = t ∧ (capHandleRevoke t h).2 ≠ .ok := by
  simp only [capHandleRevoke, resolve]
  split_ifs <;> simp_all

theorem capHandleOwner_eq (t : Table) (h : BitVec 32) : capHandleOwner t h
      = match resolve t h with
        | some i => (t i).ownerSubject
        | none => 0 := by
  simp only [capHandleOwner, resolve]
  split_ifs <;> simp_all

theorem resolve_null (t : Table) : resolve t handleNull = none := by
  rw [resolve, if_pos]
  decide

/-! ## The cascade -/

/-- The parent slot a row records, if the cascade would follow it. -/
def parentSlot (t : Table) (i : Fin 64) : Option (Fin 64) :=
  if (t i).parentHandle = handleNull then none
  else if hs : (capHandleSlot (t i).parentHandle).toNat < tableMax then
    some ⟨(capHandleSlot (t i).parentHandle).toNat, hs⟩
  else none

/-- The bitmap as a set of slots. -/
def marked (visited : BitVec 64) : Fin 64 → Bool := capHandleVisitedGet visited

theorem visitedGet_eq_getLsbD (visited : BitVec 64) (i : Fin 64) :
    capHandleVisitedGet visited i = visited.getLsbD i.val := by
  have hbit : ((visited >>> i.val) &&& 1#64)
      = if visited.getLsbD i.val then 1#64 else 0#64 := by
    ext k hk
    rw [BitVec.getElem_and, BitVec.getElem_ushiftRight]
    by_cases hk0 : k = 0
    · subst hk0
      cases visited.getLsbD i.val <;> simp
    · cases visited.getLsbD i.val <;> simp [hk0]
  rw [capHandleVisitedGet, hbit]
  cases visited.getLsbD i.val <;> rfl

theorem marked_set (visited : BitVec 64) (i : Fin 64) :
    marked (capHandleVisitedSet visited i) = update (marked visited) i true := by
  funext j
  rw [marked, visitedGet_eq_getLsbD, capHandleVisitedSet, BitVec.getLsbD_or,
    BitVec.getLsbD_shiftLeft]
  by_cases hji : j = i
  · subst hji; simp
  · have hne : j.val ≠ i.val := fun h => hji (Fin.ext h)
    rw [update_of_ne hji, marked, visitedGet_eq_getLsbD]
    cases hv : visited.getLsbD j.val with
    | true => simp
    | false =>
      by_cases hlt : j.val < i.val
      · simp [hlt]
      · have : j.val - i.val ≠ 0 := by omega
        simp [this]

theorem marked_zero_set (root : Fin 64) :
    marked (capHandleVisitedSet 0#64 root) = fun j => decide (j = root) := by
  rw [marked_set]
  funext j
  by_cases hj : j = root
  · subst hj; simp
  · rw [update_of_ne hj, marked, visitedGet_eq_getLsbD]
    simp [hj]

/-- One row of the code's sweep is one visit of the abstract one. -/
theorem sweepRow_marked (t : Table) (acc : BitVec 64 × Bool) (i : Fin 64) :
    (marked (sweepRow t acc i).1, (sweepRow t acc i).2)
      = ParentSweep.visit (parentSlot t) (marked acc.1, acc.2) i := by
  obtain ⟨visited, _⟩ := acc
  have hget : ∀ v j, capHandleVisitedGet v j = marked v j := fun _ _ => rfl
  simp only [sweepRow, ParentSweep.visit, parentSlot, hget]
  by_cases hi : marked visited i = true
  · simp [hi]
  · by_cases hp : (t i).parentHandle = handleNull
    · simp [hi, hp]
    · by_cases hs : (capHandleSlot (t i).parentHandle).toNat < tableMax
      · by_cases hv : marked visited ⟨(capHandleSlot (t i).parentHandle).toNat, hs⟩ = true
        · simp [hi, hp, hs, hv, marked_set]
        · simp [hi, hp, hs, hv]
      · simp [hi, hp, hs]

theorem sweepPass_marked (t : Table) (visited : BitVec 64) :
    (marked (sweepPass t visited).1, (sweepPass t visited).2)
      = ParentSweep.pass (parentSlot t) (marked visited) := by
  exact (List.foldl_hom (fun acc : BitVec 64 × Bool => (marked acc.1, acc.2))
    (fun acc i => (sweepRow_marked t acc i).symm)).symm

theorem sweepLoop_marked (t : Table) (k : Nat) (visited : BitVec 64) :
    marked (sweepLoop t k visited) = ParentSweep.sweep (parentSlot t) k (marked visited) := by
  fun_induction sweepLoop t k visited with
  | case1 => rfl
  | case2 visited _ hadd ih => rw [ParentSweep.sweep, ← sweepPass_marked, if_pos hadd, ih]
  | case3 visited _ hadd => rw [ParentSweep.sweep, ← sweepPass_marked, if_neg hadd]

/-- **THE CASCADE'S REACH**: the rows whose recorded parent slots lead to the root's slot. -/
theorem visited_iff (t : Table) (root i : Fin 64) : capHandleVisitedGet (subtreeVisited t root) i
      ↔ ParentSweep.Climbs (parentSlot t) i root := by
  rw [← ParentSweep.sweep_iff, ← marked_zero_set]
  rw [show capHandleVisitedGet (subtreeVisited t root) i
    = marked (subtreeVisited t root) i from rfl, subtreeVisited, sweepLoop_marked]
  rfl

/-! ## One call in one equation -/

/-- Revoke the live rows of a set of slots. -/
def revokeWhere (t : Table) (s : Fin 64 → Bool) : Table :=
  fun i => if s i && (t i).live then (t i).revoke else t i

theorem revokeWhere_none (t : Table) : revokeWhere t (fun _ => false) = t := by
  funext i
  simp [revokeWhere]

theorem revokeWhere_one (t : Table) (i : Fin 64) (hlive : (t i).live) :
    revokeWhere t (fun j => decide (j = i)) = update t i (t i).revoke := by
  funext j
  by_cases hji : j = i
  · subst hji; simp [revokeWhere, hlive]
  · simp [revokeWhere, hji]

theorem capHandleRevokeSubject_table (t : Table) (owner : Nat) : (capHandleRevokeSubject t owner).1
      = revokeWhere t (fun i => capHandleSubjectValid owner && (t i).ownerSubject == owner) := by
  cases hv : capHandleSubjectValid owner with
  | false => simp [capHandleRevokeSubject, hv, revokeWhere_none]
  | true =>
    have hrow : ∀ (acc : Table × Nat) (i : Fin 64),
        TableScan.rewriteRow (fun _ r => r.ownerSubject == owner && r.live) Row.revoke
          acc.1 i = (revokeSubjectRow owner acc i).1 := by
      intro acc i
      cases hl : (acc.1 i).live with
      | false => simp [TableScan.rewriteRow, revokeSubjectRow, hl]
      | true =>
        by_cases ho : (acc.1 i).ownerSubject = owner
        · simp [TableScan.rewriteRow, revokeSubjectRow, hl, ho]
        · simp [TableScan.rewriteRow, revokeSubjectRow, hl, ho]
    rw [capHandleRevokeSubject, hv]
    show ((List.finRange 64).foldl (revokeSubjectRow owner) (t, 0)).1 = _
    rw [← List.foldl_hom Prod.fst hrow, TableScan.foldl_rewriteRow]
    funext i
    simp [revokeWhere]

theorem capHandleRevokeSubtree_spec (t : Table) (h : BitVec 32) :
    match resolve t h with
    | some root =>
      capHandleRevokeSubtree t h
        = (revokeWhere t (capHandleVisitedGet (subtreeVisited t root)), .ok)
    | none => (capHandleRevokeSubtree t h).1 = t ∧ (capHandleRevokeSubtree t h).2 ≠ .ok := by
  have hfold : ∀ visited, (List.finRange 64).foldl (revokeVisitedRow visited) t
      = revokeWhere t (capHandleVisitedGet visited) := by
    intro visited
    have hrow : revokeVisitedRow visited
        = TableScan.rewriteRow (fun i r => capHandleVisitedGet visited i && r.live)
            Row.revoke := by
      funext t' i
      cases hv : capHandleVisitedGet visited i <;> cases hl : (t' i).live <;>
        simp [revokeVisitedRow, TableScan.rewriteRow, hv, hl]
    rw [hrow, TableScan.foldl_rewriteRow]
    rfl
  by_cases hnull : h = handleNull
  · subst hnull
    rw [resolve_null]
    simp [capHandleRevokeSubtree]
  · simp only [capHandleRevokeSubtree, if_neg hnull, resolve, hfold]
    split_ifs <;> simp_all

/-- **THE SUBTREE SWEEP IS A CLOSURE**, whatever the parent links: a success revokes exactly the
    live rows that climb to the slot of the handle, and an error leaves the table. -/
theorem subtree_sweep_closure (t : Table) (h : BitVec 32) : ((capHandleRevokeSubtree t h).2 = .ok →
      ∃ root : Fin 64, root.val = (capHandleSlot h).toNat ∧ ∀ i,
        ((t i).live = true ∧ ParentSweep.Climbs (parentSlot t) i root →
          (capHandleRevokeSubtree t h).1 i
            = { t i with flags := flagRevoked, generation := (t i).generation + 1 })
        ∧ (¬ ((t i).live = true ∧ ParentSweep.Climbs (parentSlot t) i root) →
          (capHandleRevokeSubtree t h).1 i = t i))
      ∧ ((capHandleRevokeSubtree t h).2 ≠ .ok → (capHandleRevokeSubtree t h).1 = t)
      ∧ ∀ root i, capHandleVisitedGet (subtreeVisited t root) i = true
        ↔ ParentSweep.Climbs (parentSlot t) i root := by
  have hspec := capHandleRevokeSubtree_spec t h
  cases hr : resolve t h with
  | none =>
    rw [hr] at hspec
    exact ⟨fun hok => absurd hok hspec.2, fun _ => hspec.1, visited_iff t⟩
  | some root =>
    rw [hr] at hspec
    obtain ⟨-, hslot, -, -⟩ := (resolve_eq_some_iff t h root).mp hr
    rw [hspec]
    refine ⟨fun _ => ⟨root, hslot.symm, fun i => ⟨?_, fun hnot => ?_⟩⟩, fun hne => absurd rfl hne,
      visited_iff t⟩
    · rintro ⟨hlive, hclimbs⟩
      refine if_pos ?_
      rw [(visited_iff t root i).mpr hclimbs, hlive]
      rfl
    · rw [← visited_iff t root i, and_comm, ← Bool.and_eq_true] at hnot
      exact if_neg hnot

/-- What a grant path writes. -/
structure GrantArgs where
  owner : Nat
  granter : Nat
  cap : Nat
  parent : BitVec 32
deriving DecidableEq, Repr

/-- The grant a call asks for. -/
def HandleOp.grantArgs : HandleOp → Option GrantArgs
  | .tableGrant owner granter cap => some ⟨owner, granter, cap, handleNull⟩
  | .grant owner cap => some ⟨owner, owner, cap, handleNull⟩
  | .grantChild owner cap parent => some ⟨owner, owner, cap, parent⟩
  | _ => none

/-- The argument checks of the grant paths. -/
def GrantArgs.valid (a : GrantArgs) : Bool :=
  capHandleSubjectValid a.owner && capHandleSubjectValid a.granter && capHandleCapIdValid a.cap

/-- The row a grant writes. -/
def GrantArgs.row (a : GrantArgs) (r : Row) : Row := r.grant a.owner a.granter a.cap a.parent

/-- The slot and arguments of the fresh row a call writes, if it is a grant that takes one. -/
def fresh (t : Table) (op : HandleOp) : Option (Fin 64 × GrantArgs) :=
  match op.grantArgs with
  | none => none
  | some a =>
    if a.valid && (capHandleFindLive t a.owner a.cap).isNone then
      (capHandleFindFreeSlot t).map (fun i => (i, a))
    else none

/-- The slots a call revokes, where they are live. -/
def revokedBy (t : Table) : HandleOp → Fin 64 → Bool
  | .tableRevoke owner cap, i =>
    capHandleSubjectValid owner && capHandleCapIdValid cap
      && decide (capHandleFindLive t owner cap = some i)
  | .revoke h, i => decide (resolve t h = some i)
  | .revokeSubject owner, i => capHandleSubjectValid owner && (t i).ownerSubject == owner
  | .revokeSubtree h, i =>
    match resolve t h with
    | some root => capHandleVisitedGet (subtreeVisited t root) i
    | none => false
  | _, _ => false

theorem capHandleTableGrant_table (t : Table) (owner granter cap : Nat) :
    (capHandleTableGrant t owner granter cap).1
      = match fresh t (.tableGrant owner granter cap) with
        | some (i, a) => update t i (a.row (t i))
        | none => t := by
  cases h1 : capHandleSubjectValid owner <;> cases h2 : capHandleSubjectValid granter <;>
    cases h3 : capHandleCapIdValid cap <;> cases h4 : capHandleFindLive t owner cap <;>
      cases h5 : capHandleFindFreeSlot t <;>
        simp [capHandleTableGrant, fresh, HandleOp.grantArgs, GrantArgs.valid, GrantArgs.row, *]

theorem capHandleGrantChild_table (t : Table) (owner cap : Nat) (parent : BitVec 32) :
    (capHandleGrantChild t owner cap parent).1
      = match fresh t (.grantChild owner cap parent) with
        | some (i, a) => update t i (a.row (t i))
        | none => t := by
  cases h1 : capHandleSubjectValid owner <;> cases h2 : capHandleCapIdValid cap <;>
    cases h3 : capHandleFindLive t owner cap <;> cases h4 : capHandleFindFreeSlot t <;>
      simp [capHandleGrantChild, fresh, HandleOp.grantArgs, GrantArgs.valid, GrantArgs.row, *]

theorem findLive_live (h : capHandleFindLive t owner cap = some i) : (t i).isLiveFor owner cap :=
  Fin.eq_true_of_find?_eq_some h

theorem isLiveFor_iff (r : Row) (owner cap : Nat) : r.isLiveFor owner cap
      ↔ r.live ∧ r.ownerSubject = owner ∧ r.capId = cap := by
  simp [Row.isLiveFor]

/-- **ONE CALL** writes one fresh grant, or revokes a set of live rows and nothing else. -/
theorem step_eq (t : Table) (op : HandleOp) : step t op
      = match fresh t op with
        | some (i, a) => update t i (a.row (t i))
        | none => revokeWhere t (revokedBy t op) := by
  cases op with
  | tableGrant owner granter cap =>
    show (capHandleTableGrant t owner granter cap).1 = _
    rw [capHandleTableGrant_table]
    cases fresh t (.tableGrant owner granter cap) with
    | some => rfl
    | none => exact (revokeWhere_none t).symm
  | grant owner cap =>
    show (capHandleGrantChild t owner cap handleNull).1 = _
    rw [capHandleGrantChild_table]
    show _ = match fresh t (.grantChild owner cap handleNull) with
      | some (i, a) => update t i (a.row (t i))
      | none => revokeWhere t (fun _ => false)
    rw [revokeWhere_none]
  | grantChild owner cap parent =>
    show (capHandleGrantChild t owner cap parent).1 = _
    rw [capHandleGrantChild_table]
    cases fresh t (.grantChild owner cap parent) with
    | some => rfl
    | none => exact (revokeWhere_none t).symm
  | tableRevoke owner cap =>
    show (capHandleTableRevoke t owner cap).1 = revokeWhere t (fun i =>
      capHandleSubjectValid owner && capHandleCapIdValid cap
        && decide (capHandleFindLive t owner cap = some i))
    fun_cases capHandleTableRevoke t owner cap with
    | case4 ho hc i hf =>
      have hl := ((isLiveFor_iff _ _ _).mp (findLive_live hf)).1
      rw [Bool.not_eq_true, Bool.not_eq_false'] at ho hc
      simp [← revokeWhere_one t i hl, eq_comm, ho, hc, hf]
    | _ => simp_all [revokeWhere_none]
  | revoke h =>
    show (capHandleRevoke t h).1 = revokeWhere t (fun i => decide (resolve t h = some i))
    have hspec := capHandleRevoke_spec t h
    cases hr : resolve t h with
    | none => rw [hr] at hspec; simpa [revokeWhere_none] using hspec.1
    | some i =>
      rw [hr] at hspec
      have hl := ((resolve_eq_some_iff t h i).mp hr).2.2.1
      rw [hspec, ← revokeWhere_one t i hl]
      simp [eq_comm]
  | revokeSubject owner => exact capHandleRevokeSubject_table t owner
  | revokeSubtree h =>
    show (capHandleRevokeSubtree t h).1 = revokeWhere t (revokedBy t (.revokeSubtree h))
    have hspec := capHandleRevokeSubtree_spec t h
    have hby : revokedBy t (.revokeSubtree h) = fun i =>
        match resolve t h with
        | some root => capHandleVisitedGet (subtreeVisited t root) i
        | none => false := rfl
    cases hr : resolve t h with
    | none =>
      rw [hr] at hspec hby
      rw [hby]
      exact hspec.1
    | some =>
      rw [hr] at hspec hby
      rw [hby, hspec]

@[simp] theorem live_grantRow (a : GrantArgs) (r : Row) : (a.row r).live := by
  show decide (flagLive &&& flagLive ≠ 0) = true
  decide

@[simp] theorem live_revoke (r : Row) : r.revoke.live = false := by
  show decide (flagRevoked &&& flagLive ≠ 0) = false
  decide

theorem findFreeSlot_cases (h : capHandleFindFreeSlot t = some i) :
    Fin.find? (fun i => !(t i).live && !(t i).revoked) = some i
      ∨ Fin.find? (fun i => !(t i).live) = some i := by
  unfold capHandleFindFreeSlot at h
  generalize Fin.find? (fun i => !(t i).live && !(t i).revoked) = first at h ⊢
  cases first with
  | none => exact Or.inr h
  | some => exact Or.inl h

theorem findFreeSlot_not_live (h : capHandleFindFreeSlot t = some i) : (t i).live = false := by
  rcases findFreeSlot_cases h with hi | hi
  · have hb := (Fin.find?_eq_some_iff.mp hi).1
    rw [Bool.and_eq_true, Bool.not_eq_true'] at hb
    exact hb.1
  · have hb := (Fin.find?_eq_some_iff.mp hi).1
    rwa [Bool.not_eq_true'] at hb

/-- What a fresh grant tells about the table it was made in. -/
theorem fresh_spec (h : fresh t op = some (i, a)) :
    op.grantArgs = some a ∧ a.valid ∧ capHandleFindLive t a.owner a.cap = none
      ∧ capHandleFindFreeSlot t = some i := by
  rw [fresh] at h
  cases ha : op.grantArgs with
  | none => rw [ha] at h; exact nomatch h
  | some b =>
    rw [ha] at h
    by_cases hc : (b.valid && (capHandleFindLive t b.owner b.cap).isNone) = true
    · simp only [hc, if_true, Option.map_eq_some_iff, Prod.mk.injEq] at h
      obtain ⟨_, hj, rfl, rfl⟩ := h
      rw [Bool.and_eq_true, Option.isNone_iff_eq_none] at hc
      exact ⟨rfl, hc.1, hc.2, hj⟩
    · simp [hc] at h

/-- The row at one slot after a call: kept, revoked, or freshly granted. -/
theorem step_row_cases (t : Table) (op : HandleOp) (i : Fin 64) : step t op i = t i
      ∨ ((t i).live ∧ fresh t op = none ∧ revokedBy t op i ∧ step t op i = (t i).revoke)
      ∨ ((t i).live = false ∧ ∃ a, fresh t op = some (i, a) ∧ step t op i = a.row (t i)) := by
  rw [step_eq]
  cases hf : fresh t op with
  | some ja =>
    obtain ⟨j, a⟩ := ja
    by_cases hij : i = j
    · subst hij
      refine Or.inr (Or.inr ⟨findFreeSlot_not_live (fresh_spec hf).2.2.2, a, rfl, ?_⟩)
      exact update_self ..
    · exact Or.inl (update_of_ne hij ..)
  | none =>
    by_cases hc : (revokedBy t op i && (t i).live) = true
    · rw [Bool.and_eq_true] at hc
      exact Or.inr (Or.inl ⟨hc.2, rfl, hc.1, by simp [revokeWhere, hc]⟩)
    · exact Or.inl (by simp only [revokeWhere, if_neg hc])

/-- A row that is live before and after a call was not touched by it. -/
theorem step_row_kept (h1 : (t i).live) (h2 : (step t op i).live) : step t op i = t i := by
  rcases step_row_cases t op i with h | ⟨-, -, -, h⟩ | ⟨h, -⟩
  · exact h
  · rw [h, live_revoke] at h2; exact nomatch h2
  · rw [h1] at h; exact nomatch h

end CapHandle
