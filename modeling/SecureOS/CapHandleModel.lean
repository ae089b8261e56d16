import SecureOS.CapTableProofs
import Mathlib.Data.List.FinRange

/-! # The capability handle table

`kernel/cap/cap_handle.c`: 64 rows, each a `(owner, capability)` grant with a generation
counter, and 32-bit wire handles packing a slot (bits 0–15), the low fourteen generation bits
(16–29) and a tag (30–31).

A row pointer of the source is a slot index here, `NULL` is `none`, and the scans over `g_rows`
in slot order are `Fin.find?` (first match) or folds over `List.finRange`. -/

namespace CapHandle

open Capability Function

/-- `CAP_HANDLE_FLAG_LIVE`. -/
def flagLive : BitVec 16 := 1#16

/-- `CAP_HANDLE_FLAG_REVOKED`. -/
def flagRevoked : BitVec 16 := 2#16

/-- `CAP_HANDLE_ABI_VERSION_V0`, that is `OS_ABI_VERSION`. -/
def abiVersionV0 : BitVec 16 := 0#16

/-- `CAP_HANDLE_TABLE_MAX`. -/
def tableMax : Nat := 64

/-- `CAP_HANDLE_NULL`. -/
def handleNull : BitVec 32 := 0#32

/-- `CAP_HANDLE_TAG_KERNEL`. -/
def tagKernel : BitVec 8 := 1#8

/-- `CAP_HANDLE_SLOT_MASK`, `CAP_HANDLE_GEN_MASK` and `CAP_HANDLE_TAG_MASK`. -/
def slotMask : BitVec 32 := 0xFFFF#32
def genMask : BitVec 32 := 0x3FFF#32
def tagMask : BitVec 32 := 0x3#32

/-- `cap_handle_row`. -/
structure Row where
  abiVersion : BitVec 16
  flags : BitVec 16
  capId : Nat
  ownerSubject : Nat
  granterSubject : Nat
  parentHandle : BitVec 32
  generation : BitVec 32
deriving DecidableEq, Repr

/-- `g_rows`. -/
abbrev Table := Fin 64 → Row

/-- The `CAP_HANDLE_FLAG_LIVE` bit of a row. -/
def Row.live (r : Row) : Bool := r.flags &&& flagLive ≠ 0

/-- The `CAP_HANDLE_FLAG_REVOKED` bit of a row. -/
def Row.revoked (r : Row) : Bool := r.flags &&& flagRevoked ≠ 0

def capHandleSubjectValid (s : Nat) : Bool := s < CapTable.capTableMaxSubjects

/-- `cap_handle_cap_id_valid`: this table stops at `CAP_IPC_RECV`. -/
def capHandleCapIdValid (c : Nat) : Bool := capConsoleWrite ≤ c && c ≤ capIpcRecv

/-- The test of `cap_handle_find_live` on one row. -/
def Row.isLiveFor (r : Row) (owner cap : Nat) : Bool :=
  r.live && (r.ownerSubject == owner && r.capId == cap)

def capHandleFindLive (t : Table) (owner cap : Nat) : Option (Fin 64) :=
  Fin.find? (fun i => (t i).isLiveFor owner cap)

/-- `cap_handle_find_free_slot`: a row never used yet, else a revoked one. -/
def capHandleFindFreeSlot (t : Table) : Option (Fin 64) :=
  match Fin.find? (fun i => !(t i).live && !(t i).revoked) with
  | some i => some i
  | none => Fin.find? (fun i => !(t i).live)

/-- A row as `cap_handle_table_reset` leaves it. -/
def resetRow : Row := ⟨0, 0, 0, 0, 0, 0, 0⟩

def capHandleTableReset : Table := fun _ => resetRow

/-- The row writes both grant paths make. -/
def Row.grant (r : Row) (owner granter cap : Nat) (parent : BitVec 32) : Row where
  abiVersion := abiVersionV0
  flags := flagLive
  capId := cap
  ownerSubject := owner
  granterSubject := granter
  parentHandle := parent
  generation := r.generation + 1

/-- The row writes every revoke path makes. -/
def Row.revoke (r : Row) : Row :=
  { r with flags := flagRevoked, generation := r.generation + 1 }

def capHandleTableGrant (t : Table) (owner granter cap : Nat) : Table × CapResult :=
  if !capHandleSubjectValid owner || !capHandleSubjectValid granter then
    (t, .errSubjectInvalid)
  else if !capHandleCapIdValid cap then (t, .errCapInvalid)
  else
    match capHandleFindLive t owner cap with
    | some _ => (t, .ok)
    | none =>
      match capHandleFindFreeSlot t with
      | none => (t, .errCapInvalid)
      | some i => (update t i ((t i).grant owner granter cap handleNull), .ok)

def capHandleTableRevoke (t : Table) (owner cap : Nat) : Table × CapResult :=
  if !capHandleSubjectValid owner then (t, .errSubjectInvalid)
  else if !capHandleCapIdValid cap then (t, .errCapInvalid)
  else
    match capHandleFindLive t owner cap with
    | none => (t, .errMissing)
    | some i => (update t i (t i).revoke, .ok)

def capHandleTableCheck (t : Table) (owner cap : Nat) : CapResult :=
  if !capHandleSubjectValid owner then .errSubjectInvalid
  else if !capHandleCapIdValid cap then .errCapInvalid
  else
    match capHandleFindLive t owner cap with
    | some _ => .ok
    | none => .errMissing

def capHandleTableLiveCount (t : Table) : Nat :=
  (List.finRange 64).foldl (fun live i => if (t i).live then live + 1 else live) 0

def capHandlePack (slot generationLow14 : BitVec 16) (tag : BitVec 8) : BitVec 32 :=
  ((slot.setWidth 32 &&& slotMask) <<< 0)
    ||| ((generationLow14.setWidth 32 &&& genMask) <<< 16)
    ||| ((tag.setWidth 32 &&& tagMask) <<< 30)

def capHandleSlot (h : BitVec 32) : BitVec 16 := ((h >>> 0) &&& slotMask).setWidth 16

def capHandleGeneration (h : BitVec 32) : BitVec 16 := ((h >>> 16) &&& genMask).setWidth 16

def capHandleTag (h : BitVec 32) : BitVec 8 := ((h >>> 30) &&& tagMask).setWidth 8

/-- `cap_handle_from_row`, with `cap_handle_row_slot` of the row at slot `i`. -/
def capHandleFromRow (t : Table) (i : Fin 64) : BitVec 32 :=
  capHandlePack (BitVec.ofNat 16 i) (((t i).generation &&& genMask).setWidth 16)
    tagKernel

/-- The staleness test of every handle path, the sixteen-bit value promoted as C compares it. -/
def Row.stale (r : Row) (h : BitVec 32) : Bool :=
  r.generation &&& genMask ≠ (capHandleGeneration h).setWidth 32

def capHandleGrantChild (t : Table) (owner cap : Nat) (parent : BitVec 32) : Table × BitVec 32 :=
  if !capHandleSubjectValid owner || !capHandleCapIdValid cap then (t, handleNull)
  else
    match capHandleFindLive t owner cap with
    -- the first grant wins: the recorded parent is not overwritten
    | some i => (t, capHandleFromRow t i)
    | none =>
      match capHandleFindFreeSlot t with
      | none => (t, handleNull)
      | some i =>
        let t' := update t i ((t i).grant owner owner cap parent)
        (t', capHandleFromRow t' i)

def capHandleGrant (t : Table) (owner cap : Nat) : Table × BitVec 32 :=
  capHandleGrantChild t owner cap handleNull

def capGateCheckHandleResult (t : Table) (h : BitVec 32) (expected : Nat) : CapResult :=
  if capHandleTag h ≠ tagKernel then .errCapInvalid
  else if !capHandleCapIdValid expected then .errCapInvalid
  else if hs : (capHandleSlot h).toNat < tableMax then
    let row := t ⟨(capHandleSlot h).toNat, hs⟩
    if !row.live then .errMissing
    else if row.stale h then .errMissing
    else if row.capId ≠ expected then .errCapInvalid
    else .ok
  else .errCapInvalid

def capGateCheckHandle (t : Table) (h : BitVec 32) (expected : Nat) : Bool :=
  capGateCheckHandleResult t h expected = .ok

def capHandleRevoke (t : Table) (h : BitVec 32) : Table × CapResult :=
  if capHandleTag h ≠ tagKernel then (t, .errCapInvalid)
  else if hs : (capHandleSlot h).toNat < tableMax then
    let i : Fin 64 := ⟨(capHandleSlot h).toNat, hs⟩
    if !(t i).live then (t, .errMissing)
    else if (t i).stale h then (t, .errMissing)
    else (update t i (t i).revoke, .ok)
  else (t, .errCapInvalid)

def capHandleOwner (t : Table) (h : BitVec 32) : Nat :=
  if capHandleTag h ≠ tagKernel then 0
  else if hs : (capHandleSlot h).toNat < tableMax then
    let row := t ⟨(capHandleSlot h).toNat, hs⟩
    if !row.live then 0
    else if row.stale h then 0
    else row.ownerSubject
  else 0

/-- The loop body of `cap_handle_revoke_subject`. -/
def revokeSubjectRow (owner : Nat) (acc : Table × Nat) (i : Fin 64) : Table × Nat :=
  if !(acc.1 i).live then acc
  else if (acc.1 i).ownerSubject ≠ owner then acc
  else (update acc.1 i (acc.1 i).revoke, acc.2 + 1)

def capHandleRevokeSubject (t : Table) (owner : Nat) : Table × Nat :=
  if !capHandleSubjectValid owner then (t, 0)
  else (List.finRange 64).foldl (revokeSubjectRow owner) (t, 0)

/-- `cap_handle_visited_get`; the 64 rows fit the one word of the bitmap. -/
def capHandleVisitedGet (visited : BitVec 64) (slot : Fin 64) : Bool :=
  (visited >>> slot.val) &&& 1#64 ≠ 0

def capHandleVisitedSet (visited : BitVec 64) (slot : Fin 64) : BitVec 64 :=
  visited ||| (1#64 <<< slot.val)

/-- The loop body of one sweep pass: `visited` and the `added` flag. -/
def sweepRow (t : Table) (acc : BitVec 64 × Bool) (i : Fin 64) : BitVec 64 × Bool :=
  if capHandleVisitedGet acc.1 i then acc
  else
    let parent := (t i).parentHandle
    if parent = handleNull then acc
    else if hs : (capHandleSlot parent).toNat < tableMax then
      if capHandleVisitedGet acc.1 ⟨(capHandleSlot parent).toNat, hs⟩ then
        (capHandleVisitedSet acc.1 i, true)
      else acc
    else acc

/-- One pass over the table. -/
def sweepPass (t : Table) (visited : BitVec 64) : BitVec 64 × Bool :=
  (List.finRange 64).foldl (sweepRow t) (visited, false)

/-- The fixed-point loop: stop after a pass that adds nothing, or when the passes run out. -/
def sweepLoop (t : Table) : Nat → BitVec 64 → BitVec 64
  | 0, visited => visited
  | pass + 1, visited =>
    if (sweepPass t visited).2 then sweepLoop t pass (sweepPass t visited).1
    else (sweepPass t visited).1

/-- The rows a cascade from `root` visits. -/
def subtreeVisited (t : Table) (root : Fin 64) : BitVec 64 :=
  sweepLoop t tableMax (capHandleVisitedSet 0#64 root)

/-- The loop body of the final revocation pass. -/
def revokeVisitedRow (visited : BitVec 64) (t : Table) (i : Fin 64) : Table :=
  if !capHandleVisitedGet visited i then t
  else if !(t i).live then t
  else update t i (t i).revoke

def capHandleRevokeSubtree (t : Table) (h : BitVec 32) : Table × CapResult :=
  if h = handleNull then (t, .errCapInvalid)
  else if capHandleTag h ≠ tagKernel then (t, .errCapInvalid)
  else if hs : (capHandleSlot h).toNat < tableMax then
    let root : Fin 64 := ⟨(capHandleSlot h).toNat, hs⟩
    if !(t root).live then (t, .errMissing)
    else if (t root).stale h then (t, .errMissing)
    else
      ((List.finRange 64).foldl (revokeVisitedRow (subtreeVisited t root)) t, .ok)
  else (t, .errCapInvalid)

/-- One call that may change the table. -/
inductive HandleOp where
  | tableGrant (owner granter cap : Nat)
  | tableRevoke (owner cap : Nat)
  | grant (owner cap : Nat)
  | grantChild (owner cap : Nat) (parent : BitVec 32)
  | revoke (h : BitVec 32)
  | revokeSubject (owner : Nat)
  | revokeSubtree (h : BitVec 32)
deriving DecidableEq, Repr

/-- The table a call leaves. -/
def step (t : Table) : HandleOp → Table
  | .tableGrant owner granter cap => (capHandleTableGrant t owner granter cap).1
  | .tableRevoke owner cap => (capHandleTableRevoke t owner cap).1
  | .grant owner cap => (capHandleGrant t owner cap).1
  | .grantChild owner cap parent => (capHandleGrantChild t owner cap parent).1
  | .revoke h => (capHandleRevoke t h).1
  | .revokeSubject owner => (capHandleRevokeSubject t owner).1
  | .revokeSubtree h => (capHandleRevokeSubtree t h).1

end CapHandle
