import SecureOS.FsReadBackProofs

/-! # Created entries can be found -/

namespace Fs

open Sof (Byte)
open List Option
open MachineRun (run Along)

/-- A read or a listing of the path succeeds. -/
def Found (dev : Device) (path : CString) : Prop :=
  (∃ size bytes, answer (fsReadFileBytes path size dev) = .ok bytes)
    ∨ ∃ size text, answer (fsListDir path size dev) = .ok text

/-- The call succeeds in removing the place the path names. -/
def Removes (path : CString) (dev : Device) (op : FsOp) : Prop :=
  (∃ q, (op = .unlink q ∨ op = .rmdir q) ∧ pathKey q.1 = pathKey path.1)
    ∧ ∃ dev', op.call dev = .ok () dev'

/-- The name is in its directory, or the search will see it there. -/
def Shows (dev : Device) (path : CString) : Prop :=
  ∃ parent name, fsResolveParentAndLeaf dev path.1 = .ok (parent, name)
    ∧ ((∃ slot, fsFindEntryInDirExt dev parent name = .ok slot ∧ slot.found)
      ∨ (name.marker ≠ 0xE5 ∧ ((∃ slot, fsFindEntryInDirExt dev parent name = .ok slot)
        ∨ ∃ chain, ChainFrom dev parent chain ∧ chain.length < 128)))

section Listing

/-- A text that fits in the buffer is written to it. -/
theorem putChars_ok : ∀ (text out : List Byte), out.length + text.length < size →
    putChars size out text = .ok (out ++ text) := by
  intro text
  induction text with
  | nil =>
    intro out _
    rw [append_nil]
    rfl
  | cons c _ ih =>
    intro out hlen
    rw [length_cons] at hlen
    rw [putChars, if_neg (by omega), ih (out ++ [c]) (by
      rw [length_append, length_singleton]
      omega), append_assoc]
    rfl

theorem listText_ok : ∀ (entries : List DirEntry) (out : List Byte),
    ∃ need, ∀ size, need ≤ size → ∃ text, listText size out entries = .ok text := by
  intro entries
  induction entries with
  | nil => exact fun out => ⟨0, fun size _ => ⟨out, rfl⟩⟩
  | cons e _ ih =>
    intro out
    obtain ⟨need, hneed⟩ := ih (out ++ entryText e)
    refine ⟨max need (out.length + (entryText e).length + 1), fun size hsize => ?_⟩
    obtain ⟨text, htext⟩ := hneed size (by omega)
    refine ⟨text, ?_⟩
    rw [listText, foldlM_cons, putChars_ok _ _ (by omega)]
    exact htext

end Listing

section Finding

variable {dev : Device} {tree : Tree} {path : CString} {n : Name83} {k : Key}

section

variable (h : Represents dev tree) (hkey : pathKey path.1 = some (n :: k))
include h hkey

/-- What is in the tree is found, and nothing else. -/
theorem found_iff : Found dev path ↔ ∃ node, tree (n :: k) = some node := by
  constructor
  · rintro (⟨size, _, hread⟩ | ⟨size, text, hlist⟩)
    · obtain ⟨_, _, _, hkey', hnode⟩ := file_of_read h hread
      rw [hkey] at hkey'
      cases hkey'
      exact ⟨_, hnode⟩
    · rw [answer_list h, hkey, treeList] at hlist
      by_cases hsize : size = 0
      · rw [if_pos hsize] at hlist
        cases hlist
      · rw [if_neg hsize, bind_some] at hlist
        cases hnode : tree (n :: k) with
        | none =>
          rw [hnode] at hlist
          cases hlist
        | some node => exact ⟨node, rfl⟩
  · rintro ⟨node, hnode⟩
    cases node with
    | file _ content =>
      exact .inl ⟨content.length, content, read_of_file h hkey hnode (Nat.le_refl _)⟩
    | dir _ entries =>
      obtain ⟨need, hneed⟩ := listText_ok entries []
      obtain ⟨text, htext⟩ := hneed (need + 1) (by omega)
      refine .inr ⟨need + 1, text, ?_⟩
      rw [answer_list h, hkey, treeList, bind_some, hnode]
      exact htext

/-- The condition on the state before the call, on the tree. -/
theorem shows_iff (hk : tree k = some (.dir (c :: l) entries)) :
    Shows dev path ↔ (∃ node, tree (n :: k) = some node)
      ∨ (n.marker ≠ 0xE5 ∧ Room dev.data (c :: l)) := by
  have hres : fsResolveParentAndLeaf dev path.1 = .ok (c, n) := by
    rcases resolve_tree h path.1 with
      ⟨_, _, _, _, _, hkey', hk', hres⟩ | ⟨_, hnot⟩
    · rw [hkey] at hkey'
      cases hkey'
      rw [hk] at hk'
      cases hk'
      exact hres
    · exact absurd hk (hnot n k hkey _ _)
  rcases find_tree h hk n with
    ⟨node, _, p, hnode, _, _, _, _, _, hfind⟩ | ⟨hnone, hno⟩
  · exact iff_of_true ⟨c, n, hres, .inl ⟨_, hfind, rfl⟩⟩ (.inl ⟨node, hnode⟩)
  · -- the name is not there: the search finds a free slot, or the directory is full
    have hnode : ¬ ∃ node, tree (n :: k) = some node := by
      rintro ⟨_, hnode⟩
      rw [hnone] at hnode
      cases hnode
    constructor
    · rintro ⟨_, _, hres', hcase⟩
      rw [hres] at hres'
      cases hres'
      rcases find_absent h.healthy (h.chain hk) (h.dir hk) hno with
        ⟨_, p, _, hsplit, _, hfree, hfind⟩ | ⟨hfull, hfind⟩
      · have hroom : Room dev.data (c :: l) := by
          refine .inr ⟨p, ?_, hfree⟩
          rw [hsplit]
          exact mem_append_right _ (mem_cons_self ..)
        rcases hcase with ⟨_, hslot, hfound⟩ | ⟨hmark, _⟩
        · rw [hfind] at hslot
          cases hslot
          cases hfound
        · exact .inr ⟨hmark, hroom⟩
      · rcases hcase with ⟨_, hslot, _⟩ | ⟨hmark, ⟨_, hslot⟩ | ⟨_, hfrom, hlen⟩⟩
        · rw [hfind] at hslot
          cases hslot
        · rw [hfind] at hslot
          cases hslot
        · rw [hfrom.unique (h.chainFrom hk)] at hlen
          exact .inr ⟨hmark, .inl hlen⟩
    · rintro (hin | ⟨hmark, hroom⟩)
      · exact absurd hin hnode
      · refine ⟨c, n, hres, .inr ⟨hmark, ?_⟩⟩
        rcases hroom with hlen | ⟨q, hq, hfree⟩
        · exact .inr ⟨_, h.chainFrom hk, hlen⟩
        · rcases find_absent h.healthy (h.chain hk) (h.dir hk) hno with
            ⟨_, _, _, _, _, _, hfind⟩ | ⟨hfull, _⟩
          · exact .inl ⟨_, hfind⟩
          · rw [hfull q hq] at hfree
            cases hfree

end

/-- A place that is not removed stays in the tree. -/
theorem Outcome.keeps (hout : Outcome dev tree op dev' tree')
    (hkey : pathKey path.1 = some (n :: k)) (hnode : tree (n :: k) = some node)
    (hno : ¬ Removes path dev op) : ∃ node', tree' (n :: k) = some node' := by
  have hkeeps : ∀ {m j child}, Changed tree tree' j m child → (n :: k = m :: j → child ≠ none) →
      ∃ node', tree' (n :: k) = some node' := by
    intro m j _ hc hchild
    by_cases hself : n :: k = m :: j
    · rw [hself, hc.child_eq]
      exact ne_none_iff_exists'.mp (hchild hself)
    · by_cases hup : n :: k = j
      · obtain ⟨_, _, hparent⟩ := hc.parent
        exact ⟨_, by rw [hup]; exact hparent⟩
      · exact ⟨node, by rw [hc.others _ hself hup]; exact hnode⟩
  cases hout with
  | refused _ _ tree_eq => exact ⟨node, by rw [tree_eq]; exact hnode⟩
  | clobbered _ _ _ _ _ _ _ _ _ _ _ _ changed
  | created _ _ _ _ _ _ _ _ _ _ _ _ changed
  | rewritten _ _ _ _ _ _ _ _ _ _ _ _ changed => exact hkeeps changed (fun _ => some_ne_none _)
  | hidden _ _ _ _ _ _ _ _ absent _ _ changed =>
    refine hkeeps changed (fun heq => ?_)
    rw [← heq, hnode] at absent
    cases absent
  | removed _ _ _ q op_eq key _ run changed =>
    refine hkeeps changed (fun heq => ?_)
    refine absurd ⟨⟨q, ?_, ?_⟩, dev', run⟩ hno
    · rcases op_eq with ⟨hop, _⟩ | ⟨hop, _⟩
      · exact .inl hop
      · exact .inr hop
    · rw [key, hkey, heq]

/-- What is found is found until it is removed. -/
theorem found_run (h : Represents dev tree) (hkey : pathKey path.1 = some (n :: k))
    (hnode : tree (n :: k) = some node) (ops : List FsOp)
    (hno : Along FsOp.after (fun dev op => ¬ Removes path dev op) dev ops) :
    Found (run FsOp.after dev ops) path := by
  have hinv := MachineRun.run_inv
    (I := fun dev => ∃ tree, Represents dev tree ∧ ∃ node, tree (n :: k) = some node)
    (fun dev op => ?_) ops dev ⟨tree, h, node, hnode⟩ hno
  · obtain ⟨tree', h', hnode'⟩ := hinv
    exact (found_iff h' hkey).mpr hnode'
  · rintro ⟨_, h, _, hnode⟩ hop
    obtain ⟨_, tree', h', hout⟩ := call_outcome h op
    rw [hout.after]
    exact ⟨tree', h', hout.keeps hkey hnode hop⟩

end Finding

/-- **CREATED ENTRIES ARE FOUND**, from then on until they are removed, exactly if they
    show: in every reachable state, for every path and every write or mkdir that succeeds. -/
theorem created_found (raw : Device) (hd : Healthy raw) (ops : List FsOp) (op : FsOp)
    (hop : (∃ content append, op = .write op.path content append) ∨ op = .mkdir op.path)
    (dev' : Device) (hrun : op.call (run FsOp.after (formatted raw) ops) = .ok () dev') :
    Shows (run FsOp.after (formatted raw) ops) op.path
      ↔ ∀ later, Along FsOp.after (fun dev op' => ¬ Removes op.path dev op') dev' later →
        Found (run FsOp.after dev' later) op.path := by
  obtain ⟨_, h⟩ := reachable_tree hd ops
  obtain ⟨tree', h', hout⟩ := outcome_of_ok h hrun
  -- an entry in the tree is found for good, and one that is not is not found now
  have hfound : ∀ {n k node}, pathKey op.path.1 = some (n :: k) → tree' (n :: k) = some node →
      ∀ later, Along FsOp.after (fun dev op' => ¬ Removes op.path dev op') dev' later →
        Found (run FsOp.after dev' later) op.path :=
    fun hkey hnode later hno => found_run h' hkey hnode later hno
  cases hout with
  | refused _ run | clobbered _ _ _ _ _ _ _ _ _ _ _ run =>
    rw [hrun] at run
    cases run
  | created _ _ _ _ _ path op_eq key above _ seen _ changed =>
    have hpath : op.path = path := by rcases op_eq with ⟨_, _, _, rfl, _⟩ | ⟨rfl, _⟩ <;> rfl
    obtain ⟨_, _, rfl⟩ := h.dir_chain above
    rw [← hpath] at key
    exact iff_of_true ((shows_iff h key above).mpr (.inr seen)) (hfound key changed.child_eq)
  | hidden _ _ _ _ path op_eq key above absent unseen _ changed =>
    have hpath : op.path = path := by rcases op_eq with ⟨_, _, rfl⟩ | rfl <;> rfl
    obtain ⟨_, _, rfl⟩ := h.dir_chain above
    rw [← hpath] at key
    refine iff_of_false (fun hshows => ?_) (fun hall => ?_)
    · rcases (shows_iff h key above).mp hshows with ⟨_, hnode⟩ | ⟨hmark, hroom⟩
      · rw [absent] at hnode
        cases hnode
      · exact unseen.elim hmark (fun hno => hno hroom)
    · obtain ⟨_, hnode⟩ := (found_iff h' key).mp (hall [] trivial)
      rw [changed.child_eq] at hnode
      cases hnode
  | rewritten _ _ _ _ _ _ _ path op_eq key file _ changed =>
    have hpath : op.path = path := by rw [op_eq]; rfl
    rw [← hpath] at key
    obtain ⟨_, _, habove, _⟩ := h.parent file
    obtain ⟨_, _, rfl⟩ := h.dir_chain habove
    exact iff_of_true ((shows_iff h key habove).mpr (.inl ⟨_, file⟩)) (hfound key changed.child_eq)
  | removed _ _ _ _ op_eq =>
    rcases op_eq with ⟨rfl, _⟩ | ⟨rfl, _⟩
    · rcases hop with ⟨_, _, hop⟩ | hop
      · cases hop
      · cases hop
    · rcases hop with ⟨_, _, hop⟩ | hop
      · cases hop
      · cases hop

/-- The first directory of a disk is found until it is removed. -/
theorem created_found_mkdir : ∃ dev', (FsOp.mkdir pathA).call (formatted blankDevice) = .ok () dev'
      ∧ ∀ later, Along FsOp.after (fun dev op => ¬ Removes pathA dev op) dev' later →
        Found (run FsOp.after dev' later) pathA := by
  obtain ⟨n, hkey⟩ : ∃ n, pathKey pathA.1 = some [n] := ⟨_, rfl⟩
  have hshows : Shows (formatted blankDevice) pathA :=
    (shows_iff (formatted_tree blankDevice_healthy) hkey rfl).mpr
      (.inr ⟨plain_marker (by decide) hkey, .inl (by decide)⟩)
  have hrun : (FsOp.mkdir pathA).call (formatted blankDevice) = .ok () _ :=
    FsOp.call_after (by decide +kernel)
  exact ⟨_, hrun, (created_found blankDevice blankDevice_healthy [] (.mkdir pathA) (.inr rfl) _
    hrun).mp hshows⟩

/-- A name that starts with the mark of a deleted slot. -/
def pathMark : CString := ⟨[0xE5], by decide⟩

/-- **A CREATED FILE IS LOST**: the write of the file succeeds, and neither a read nor a
    listing finds it. -/
theorem deleted_mark_lost :
    answer (fsWriteFileBytes pathMark [0x01] false (formatted blankDevice)) = .ok ()
      ∧ ¬ Found (run FsOp.after (formatted blankDevice) [.write pathMark [0x01] false])
        pathMark := by
  refine ⟨by decide +kernel, fun hfound => ?_⟩
  obtain ⟨_, h⟩ := reachable_tree blankDevice_healthy [.write pathMark [0x01] false]
  obtain ⟨n, hkey⟩ : ∃ n, pathKey pathMark.1 = some [n] := ⟨_, rfl⟩
  obtain ⟨node, hnode⟩ := (found_iff h hkey).mp hfound
  have hmiss : answer (fsReadFileBytes pathMark 1
      (run FsOp.after (formatted blankDevice) [.write pathMark [0x01] false]))
      = .error .notFound := by decide +kernel
  rw [answer_read h, hkey, treeRead, hnode] at hmiss
  cases node with
  | dir => cases hmiss
  | file =>
    rw [readNode] at hmiss
    split at hmiss <;> cases hmiss

end Fs
