import SecureOS.FsCallProofs
import SecureOS.Lib.MachineRunProofs

/-! # Runs from the formatted disk, and calls that fail -/

namespace Fs

open Sof (Byte)
open LinkChain (Linked)
open MachineRun (run)

/-- The tree of a formatted disk: the root directory, without entries. -/
def emptyTree : Tree := fun k => if k = [] then some (.dir [2] []) else none

section Formatted

variable {k : Key}

theorem emptyTree_eq (h : emptyTree k = some node) : k = [] ∧ node = .dir [2] [] := by
  rw [emptyTree] at h
  by_cases hk : k = []
  · rw [if_pos hk] at h
    exact ⟨hk, (Option.some.inj h).symm⟩
  · rw [if_neg hk] at h
    cases h

theorem freshFat_chain : ChainOk freshFat [2] := by
  refine ⟨fatLink_eq_none.mpr (by decide), fun c hc => ?_, fun c hc => ?_⟩
  · rw [List.mem_singleton.mp hc]
    exact ⟨Nat.le_refl _, by omega⟩
  · cases hc

/-- **THE FORMATTED DISK** holds the tree of the root directory alone. -/
theorem formatted_tree (hd : Healthy raw) : Represents (formatted raw) emptyTree := by
  have hclear : (formatted raw).data 2 = zeroBlock :=
    show Function.update raw.data 2 zeroBlock 2 = zeroBlock from Function.update_self ..
  refine ⟨hd.with .., bootSector_valid, ⟨[], [], rfl⟩, ?_, ?_, ?_, ?_, ?_⟩
  · intro _ _ hk
    obtain ⟨rfl, rfl⟩ := emptyTree_eq hk
    exact freshFat_chain
  · intro _ _ hk
    obtain ⟨rfl, rfl⟩ := emptyTree_eq hk
    exact DirOk.cleared hclear
  · intro _ _ _ hk
    cases (emptyTree_eq hk).1
  · intro _ _ _ _ hk he
    cases (emptyTree_eq hk).2
    cases he
  · intro _ _ _ _ _ hk hk' _ _
    rw [(emptyTree_eq hk).1, (emptyTree_eq hk').1]

theorem formatted_tight : Tight (formatted raw) emptyTree := by
  refine ⟨fun c hc hused => ?_, fun {k chain entries} hk => ?_⟩
  · refine ⟨[], .dir [2] [], rfl, List.mem_singleton.mpr ?_⟩
    by_contra hne
    refine hused ?_
    obtain ⟨_, _⟩ := hc
    show fsFatGetEntry freshFat c = 0
    rw [freshFat, get_set_of_ne hne, get_set_of_ne (by omega), get_set_of_ne (by omega),
      fsFatGetEntry, dif_pos (by omega)]
    exact Nat.zero_mod _
  · cases (emptyTree_eq hk).2
    decide

/-- Every state a run reaches holds a tree. -/
theorem reachable_tree (hd : Healthy raw) (ops : List FsOp) :
    ∃ tree, Represents (run FsOp.after (formatted raw) ops) tree := by
  refine MachineRun.run_inv_all (I := fun dev => ∃ tree, Represents dev tree) ?_ ops _
    ⟨emptyTree, formatted_tree hd⟩
  rintro _ op ⟨_, h⟩
  obtain ⟨_, tree', h', hout⟩ := call_outcome h op
  rw [hout.after]
  exact ⟨tree', h'⟩

end Formatted

/-- What a call answers, without the device it leaves. -/
def answer {α : Type} : EStateM.Result FsError Device α → Except FsError α
  | .ok a _ => .ok a
  | .error e _ => .error e

theorem FsOp.call_after {op : FsOp} {dev : Device} (h : answer (op.call dev) = .ok ()) :
    op.call dev = .ok () (op.after dev) := by
  cases hrun : op.call dev with
  | ok => rw [FsOp.after_ok hrun]
  | error =>
    rw [hrun] at h
    cases h

/-- Both devices answer every read and every listing alike. -/
def SameView (dev dev' : Device) : Prop :=
  ∀ (path : CString) (size : Nat),
    answer (fsReadFileBytes path size dev') = answer (fsReadFileBytes path size dev)
      ∧ answer (fsListDir path size dev') = answer (fsListDir path size dev)

section View

variable {dev : Device} {tree : Tree}

theorem answer_query (q : Device → Except FsError α) (dev : Device) :
    answer (query q dev) = q dev := by
  rw [query]
  cases q dev <;> rfl

theorem answer_read (h : Represents dev tree) (path : CString) (size : Nat) :
    answer (fsReadFileBytes path size dev) = treeRead tree size (pathKey path.1) := by
  rw [read_tree h, answer_query]

theorem answer_list (h : Represents dev tree) (path : CString) (size : Nat) :
    answer (fsListDir path size dev) = treeList tree size (pathKey path.1) := by
  rw [list_tree h, answer_query]

/-- Devices that hold the same tree have the same view. -/
theorem SameView.of_tree (h : Represents dev tree) (h' : Represents dev' tree) :
    SameView dev dev' := by
  intro _ _
  rw [answer_read h, answer_read h', answer_list h, answer_list h']
  exact ⟨rfl, rfl⟩

variable {path : CString}

/-- What is read is the content of a file of the tree. -/
theorem file_of_read (h : Represents dev tree)
    (hread : answer (fsReadFileBytes path size dev) = .ok bytes) :
    ∃ n k chain, pathKey path.1 = some (n :: k) ∧ tree (n :: k) = some (.file chain bytes) := by
  rw [answer_read h] at hread
  cases hkey : pathKey path.1 with
  | none =>
    rw [hkey] at hread
    cases hread
  | some key =>
    rw [hkey] at hread
    cases key with
    | nil => cases hread
    | cons n k =>
      rw [treeRead] at hread
      cases hnode : tree (n :: k) with
      | none =>
        rw [hnode] at hread
        cases hread
      | some node =>
        rw [hnode] at hread
        cases node with
        | dir => cases hread
        | file chain =>
          rw [readNode] at hread
          split at hread
          · cases hread
          · cases hread
            exact ⟨n, k, chain, rfl, hnode⟩

variable (h : Represents dev tree) (hkey : pathKey path.1 = some (n :: k))
  (hnode : tree (n :: k) = some (.file chain old))
include h hkey hnode

theorem read_of_file (hsize : old.length ≤ size) :
    answer (fsReadFileBytes path size dev) = .ok old := by
  rw [answer_read h, hkey, treeRead, hnode, readNode, if_neg (by omega)]

/-- The lookup of a file of the tree, as the calls do it. -/
theorem lookup_file : ∃ parent slot, fsResolveParentAndLeaf dev path.1 = .ok (parent, n)
      ∧ fsFindEntryInDirExt dev parent n = .ok slot ∧ slot.found
      ∧ chain.head? = some (entryAt slot.block slot.offset).cluster := by
  rcases resolve_tree h path.1 with
    ⟨_, _, c, _, _, hkey', hk, hres⟩ | ⟨_, hnone⟩
  · rw [hkey] at hkey'
    cases hkey'
    rcases find_tree h hk n with
      ⟨_, e, p, hnode', _, _, hmatch, _, hslot, hfind⟩ | ⟨hnone, _⟩
    · rw [hnode] at hnode'
      cases hnode'
      obtain rfl : entryAt (dev.data p.1) p.2 = e := slotAt_entry hslot
      exact ⟨c, _, hres, hfind, rfl, hmatch.2.1⟩
    · rw [hnode] at hnone
      cases hnone
  · rw [h.absent (hnone n k hkey)] at hnode
    cases hnode

end View

/-- The call is no overwrite of a file with content that needs more clusters than the file has and
    the disk has left. -/
def Fits (dev : Device) (op : FsOp) : Prop :=
  ∀ path content, op = .write path content false →
    ∀ old size parent name slot chain, answer (fsReadFileBytes path size dev) = .ok old → old ≠ [] →
      fsResolveParentAndLeaf dev path.1 = .ok (parent, name) →
      fsFindEntryInDirExt dev parent name = .ok slot →
      chain.head? = some (entryAt slot.block slot.offset).cluster →
      Linked (fatLink dev.fat) chain →
      content.length ≤ 512 * (chain.length + (freeClusters dev.fat).card)

/-- The same call, with any bytes of the same number. -/
def FsOp.Like : FsOp → FsOp → Prop
  | .write path content append, op' =>
    ∃ content', content'.length = content.length ∧ op' = .write path content' append
  | op, op' => op' = op

theorem Fits.like (hfits : Fits dev op) (hlike : op.Like op') : Fits dev op' := by
  cases op with
  | write path content append =>
    obtain ⟨content', hlen, rfl⟩ := hlike
    intro path' _ hop
    cases hop
    rw [hlen]
    exact hfits path content rfl
  | _ =>
    subst hlike
    exact hfits

section Failed

variable {dev : Device} {tree : Tree} {path : CString}

theorem failed_sameView (h : Represents dev tree) (hfits : Fits dev op)
    (hfail : op.call dev = .error e dev') : SameView dev dev' := by
  obtain ⟨_, _, h', hout⟩ := call_outcome h op
  -- a call with an error is refused or clobbers, and the rest of the cases succeed
  have hok : ∀ {d}, op.call dev = .ok () d → False := by
    intro _ hrun
    rw [hfail] at hrun
    cases hrun
  cases hout with
  | refused _ run tree_eq =>
    rw [hfail] at run
    cases run
    rw [tree_eq] at h'
    exact SameView.of_tree h h'
  | clobbered n _ chain old lost path content op_eq key file _ run _ lost_head _ same =>
    rw [hfail] at run
    cases run
    by_cases hnil : old = []
    · -- an empty file has nothing to lose
      subst hnil
      rw [List.length_nil, Nat.min_zero, List.take_zero, List.take_eq_nil_iff] at lost_head
      rw [same (lost_head.resolve_left (by decide))] at h'
      exact SameView.of_tree h h'
    · obtain ⟨parent, slot, hres, hfind, _, hhead⟩ := lookup_file h key file
      have hle := hfits path content op_eq old old.length parent n slot chain
        (read_of_file h key file (Nat.le_refl _)) hnil hres hfind hhead (h.chain file).linked
      omega
  | created _ _ _ _ _ _ _ _ _ _ _ run
  | hidden _ _ _ _ _ _ _ _ _ _ run
  | rewritten _ _ _ _ _ _ _ _ _ _ _ run
  | removed _ _ _ _ _ _ _ run => exact (hok run).elim

section

variable (h : Represents dev tree) (hkey : pathKey path.1 = some (n :: k))
  (hnode : tree (n :: k) = some (.file chain old))
include h hkey hnode

/-- A write with more bytes than the file's clusters and the free ones hold. -/
theorem write_too_long (content : List Byte) (append : Bool)
    (hlong : 512 * (chain.length + (freeClusters dev.fat).card)
      < (written old content append).length) : ∃ data',
      (FsOp.write path content append).call dev = .error .noSpace { dev with data := data' }
        ∧ WriteFull dev.fat dev.data data' chain old content append := by
  rcases write_file h hkey hnode content append with
    ⟨_, _, chain', h', _, hchanged, hfresh, _⟩ | hfull
  · -- no chain is long enough
    have hle := length_le_of_take_chainBytes (h'.holds hchanged.child_eq)
    have hcard : chain'.length ≤ chain.length + (freeClusters dev.fat).card := by
      have hnd : chain'.Nodup := (h'.chain hchanged.child_eq).nodup
      rw [← List.toFinset_card_of_nodup hnd]
      calc chain'.toFinset.card ≤ (chain.toFinset ∪ freeClusters dev.fat).card :=
            Finset.card_le_card (fun c hc => by simpa using hfresh c (List.mem_toFinset.mp hc))
        _ ≤ chain.toFinset.card + (freeClusters dev.fat).card := Finset.card_union_le ..
        _ ≤ _ := Nat.add_le_add_right (List.toFinset_card_le _) _
    omega
  · exact hfull

/-- More bytes than the disk has. -/
def hugeContent : List Byte := List.replicate (512 * 8190 + 1) 0x02

theorem huge_write_full (append : Bool) : ∃ data', (FsOp.write path hugeContent append).call dev
      = .error .noSpace { dev with data := data' }
      ∧ WriteFull dev.fat dev.data data' chain old hugeContent append := by
  refine write_too_long h hkey hnode _ _ ?_
  have hroom : chain.length + _ ≤ 8190 := (h.chain hnode).length_add_free_le
  have hhuge : hugeContent.length = 512 * 8190 + 1 := List.length_replicate
  cases append with
  | true =>
    show _ < (old ++ hugeContent).length
    rw [List.length_append]
    omega
  | false =>
    show _ < hugeContent.length
    omega

/-- What is read after an overwrite that does not fit. -/
theorem read_clobbered (hfull : WriteFull dev.fat dev.data data' chain old content false) :
    ∃ lost, answer (fsReadFileBytes path old.length { dev with data := data' }) = .ok lost
      ∧ lost.length ≤ old.length ∧ lost.take 512 = content.take (min 512 old.length) := by
  obtain ⟨_, h', hchanged, _⟩ := write_full h hnode hfull
  exact ⟨_, read_of_file h' hkey hchanged.child_eq (List.length_take_le ..),
    List.length_take_le .., hfull.lost (h.chain hnode).linked.ne_nil _⟩

end

end Failed

/-- **FAILED CALLS HAVE NO EFFECT**, in every reachable state and whatever the bytes to write are,
    exactly if the call is no overwrite of a file with content that asks for more clusters than
    there are. -/
theorem failed_call_no_effect_iff (raw : Device) (hd : Healthy raw) (ops : List FsOp) (op : FsOp) :
    (∀ op' e dev', op.Like op' → op'.call (run FsOp.after (formatted raw) ops) = .error e dev' →
        SameView (run FsOp.after (formatted raw) ops) dev')
      ↔ Fits (run FsOp.after (formatted raw) ops) op := by
  obtain ⟨_, h⟩ := reachable_tree hd ops
  generalize run FsOp.after (formatted raw) ops = dev at h ⊢
  constructor
  · intro hall path content hop old size parent name slot chain hread hne hres hfind hhead hlinked
    subst hop
    by_contra hlong
    obtain ⟨n, k, chain', hkey, hnode⟩ := file_of_read h hread
    obtain ⟨_, _, hres', hfind', _, hhead'⟩ := lookup_file h hkey hnode
    cases hres.symm.trans hres'
    cases hfind.symm.trans hfind'
    obtain ⟨rest, rfl⟩ := List.head?_eq_some_iff.mp hhead
    obtain ⟨_, rfl⟩ := List.head?_eq_some_iff.mp hhead'
    cases hlinked.unique (h.chain hnode).linked
    -- bytes other than the first one of the file
    obtain ⟨b, bs, rfl⟩ := List.exists_cons_of_ne_nil hne
    have hlen : (List.replicate content.length (b + 1)).length = content.length :=
      List.length_replicate
    obtain ⟨_, hrun, hfull⟩ := write_too_long h hkey hnode _ false
      (hlen ▸ Nat.lt_of_not_le hlong)
    obtain ⟨lost, hlost, -, hbytes⟩ := read_clobbered h hkey hnode hfull
    have hsame := (hall _ _ _ ⟨_, hlen, rfl⟩ hrun path (b :: bs).length).1
    rw [hlost, read_of_file h hkey hnode (Nat.le_refl _)] at hsame
    cases hsame
    have hpos : 0 < content.length := by omega
    have hfirst := congrArg (·[0]?) hbytes
    simp [hpos] at hfirst
  · intro hfits op' e dev' hlike hfail
    exact failed_sameView h (hfits.like hlike) hfail

/-- The path `a`. -/
def pathA : CString := ⟨[0x61], by decide⟩

/-- The disk with one file of one byte. -/
theorem pathA_written : answer (fsReadFileBytes pathA 1
    (run FsOp.after (formatted blankDevice) [.write pathA [0x01] false])) = .ok [0x01] := by
  decide +kernel

/-- A long append to a file that runs out of clusters. -/
theorem failed_call_no_effect_append : ∃ dev', (FsOp.write pathA hugeContent true).call
        (run FsOp.after (formatted blankDevice) [.write pathA [0x01] false]) = .error .noSpace dev'
      ∧ SameView (run FsOp.after (formatted blankDevice) [.write pathA [0x01] false]) dev' := by
  obtain ⟨_, h⟩ := reachable_tree blankDevice_healthy [.write pathA [0x01] false]
  obtain ⟨_, _, _, hkey, hnode⟩ := file_of_read h pathA_written
  obtain ⟨_, hrun, _⟩ := huge_write_full h hkey hnode true
  exact ⟨_, hrun, (failed_call_no_effect_iff blankDevice blankDevice_healthy _
    (.write pathA hugeContent true)).mpr (fun path content hop => by cases hop) _ _ _
      ⟨hugeContent, rfl, rfl⟩ hrun⟩

/-- **A FAILED OVERWRITE LOSES THE FILE**: the call returns NO_SPACE, the old content was
    one byte, and another byte is read afterwards. -/
theorem failed_overwrite_loses : ∃ dev', (FsOp.write pathA hugeContent false).call
        (run FsOp.after (formatted blankDevice) [.write pathA [0x01] false]) = .error .noSpace dev'
      ∧ answer (fsReadFileBytes pathA 1
        (run FsOp.after (formatted blankDevice) [.write pathA [0x01] false])) = .ok [0x01]
      ∧ answer (fsReadFileBytes pathA 1 dev') = .ok [0x02] := by
  obtain ⟨_, h⟩ := reachable_tree blankDevice_healthy [.write pathA [0x01] false]
  obtain ⟨_, _, _, hkey, hnode⟩ := file_of_read h pathA_written
  obtain ⟨_, hrun, hfull⟩ := huge_write_full h hkey hnode false
  obtain ⟨lost, hlost, hlen, hbytes⟩ := read_clobbered h hkey hnode hfull
  have hone : lost.length ≤ 1 := hlen
  obtain rfl : lost = [0x02] := by
    rw [← List.take_of_length_le (Nat.le_trans hone (by decide : 1 ≤ 512)), hbytes]
    rfl
  exact ⟨_, hrun, pathA_written, hlost⟩

end Fs
