import SecureOS.FsNameProofs
import SecureOS.FsPlaceProofs

/-! # The ways a call can end

Each of the four calls that change the filesystem fails without a change of the tree, changes
one place of it, or is the overwrite that loses a file. -/

namespace Fs

open Sof (Byte)
open List

/-- Every cluster in use has a place in the tree, and the search reaches a directory's clusters. -/
structure Tight (dev : Device) (tree : Tree) : Prop where
  owned : ∀ c, DataCluster c → fsFatGetEntry dev.fat c ≠ 0 →
    ∃ k node, tree k = some node ∧ c ∈ node.chain
  short : ∀ {k chain entries}, tree k = some (.dir chain entries) → chain.length ≤ 128

/-- One place of the tree has a new value; the directory it is in may have other entries. -/
structure Changed (tree tree' : Tree) (k : Key) (n : Name83) (child : Option Node) : Prop where
  child_eq : tree' (n :: k) = child
  parent : ∃ chain entries, tree' k = some (.dir chain entries)
  others : ∀ q, q ≠ n :: k → q ≠ k → tree' q = tree q

theorem Changed.edit (tree : Tree) (k : Key) (n : Name83) (chain : List Nat)
    (entries : List DirEntry) (child : Option Node) :
    Changed tree (tree.edit k n (.dir chain entries) child) k n child :=
  ⟨edit_child .., ⟨chain, entries, edit_parent ..⟩, fun _ hc hk => edit_other _ _ hc hk⟩

section Tight

variable {dev dev' : Device} {tree : Tree} {k : Key} {n : Name83} {chain chain' : List Nat}
  {entries entries' : List DirEntry} {child : Option (DirEntry × Node)}

/-- The edit rule for trees without lost clusters. -/
theorem Tight.edit (ht : Tight dev tree) (hk : tree k = some (.dir chain entries))
    (hkeeps : ∀ c ∈ chain, c ∈ chain') (hshort : chain'.length ≤ 128)
    (hchild : ∀ {e ch es}, child = some (e, .dir ch es) → ch.length ≤ 128)
    (hused : ∀ c, fsFatGetEntry dev'.fat c ≠ 0 → c ∈ chain'
      ∨ (∃ e node, child = some (e, node) ∧ c ∈ node.chain)
      ∨ (fsFatGetEntry dev.fat c ≠ 0 ∧ c ∉ chainAt tree (n :: k))) :
    Tight dev' (tree.edit k n (.dir chain' entries') (child.map Prod.snd)) := by
  refine ⟨fun c hc hne => ?_, fun {q ch es} hq => ?_⟩
  · rcases hused c hne with hin | ⟨_, node, rfl, hin⟩ | ⟨hold, hout⟩
    · exact ⟨k, _, edit_parent .., hin⟩
    · exact ⟨n :: k, node, edit_child .., hin⟩
    · obtain ⟨q, node, hq, hin⟩ := ht.owned c hc hold
      by_cases hqc : q = n :: k
      · rw [chainAt, ← hqc, hq] at hout
        exact absurd hin hout
      · by_cases hqk : q = k
        · subst hqk
          rw [hk] at hq
          cases hq
          exact ⟨q, _, edit_parent .., hkeeps c hin⟩
        · exact ⟨q, node, by rw [edit_other _ _ hqc hqk]; exact hq, hin⟩
  · rcases edit_cases hq with ⟨_, _, hc⟩ | ⟨_, hdir⟩ | ⟨_, _, hold⟩
    · exact hchild hc
    · cases hdir
      exact hshort
    · exact ht.short hold

theorem Tight.sameTable (ht : Tight dev tree) (hfat : dev'.fat = dev.fat) : Tight dev' tree := by
  refine ⟨fun c hc hne => ?_, ht.short⟩
  rw [hfat] at hne
  exact ht.owned c hc hne

end Tight

/-- **THE OUTCOME OF A CALL**: the device and the tree it leaves. -/
inductive Outcome (dev : Device) (tree : Tree) (op : FsOp) (dev' : Device) (tree' : Tree) : Prop
  /-- An error, and the tree is as before. -/
  | refused (e : FsError) (run : op.call dev = .error e dev') (tree_eq : tree' = tree)
    (tight : Tight dev tree → Tight dev' tree')
  /-- An overwrite that does not fit: the error comes when the old bytes are gone. -/
  | clobbered (n : Name83) (k : Key) (chain : List Nat) (old lost : List Byte) (path : CString)
    (content : List Byte) (op_eq : op = .write path content false)
    (key : pathKey path.1 = some (n :: k)) (file : tree (n :: k) = some (.file chain old))
    (long : 512 * (chain.length + (freeClusters dev.fat).card) < content.length)
    (run : op.call dev = .error .noSpace dev')
    (changed : Changed tree tree' k n (some (.file chain lost)))
    (lost_head : lost.take 512 = content.take (min 512 old.length))
    (tight : Tight dev tree → Tight dev' tree') (same : lost = old → tree' = tree)
  /-- A new file or directory that the search will see. -/
  | created (n : Name83) (k : Key) (chain : List Nat) (entries : List DirEntry) (node : Node)
    (path : CString)
    (op_eq : (∃ ch content append, op = .write path content append ∧ node = .file ch content)
      ∨ (op = .mkdir path ∧ ∃ c, node = .dir [c] []))
    (key : pathKey path.1 = some (n :: k)) (above : tree k = some (.dir chain entries))
    (absent : tree (n :: k) = none) (seen : n.marker ≠ 0xE5 ∧ Room dev.data chain)
    (run : op.call dev = .ok () dev') (changed : Changed tree tree' k n (some node))
    (tight : Tight dev tree → Tight dev' tree')
  /-- A new file or directory that the search will not see. -/
  | hidden (n : Name83) (k : Key) (chain : List Nat) (entries : List DirEntry) (path : CString)
    (op_eq : (∃ content append, op = .write path content append) ∨ op = .mkdir path)
    (key : pathKey path.1 = some (n :: k)) (above : tree k = some (.dir chain entries))
    (absent : tree (n :: k) = none) (unseen : n.marker = 0xE5 ∨ ¬ Room dev.data chain)
    (run : op.call dev = .ok () dev') (changed : Changed tree tree' k n none)
    (beyond : n.marker ≠ 0xE5 → chain.length ≤ 128 → ∃ chain' entries',
      tree' k = some (.dir chain' entries')
        ∧ 2048 < (entriesIn dev'.data (slotsOf chain')).length)
  /-- A write to a file that was there. -/
  | rewritten (n : Name83) (k : Key) (chain chain' : List Nat) (old content : List Byte)
    (append : Bool) (path : CString) (op_eq : op = .write path content append)
    (key : pathKey path.1 = some (n :: k)) (file : tree (n :: k) = some (.file chain old))
    (run : op.call dev = .ok () dev')
    (changed : Changed tree tree' k n (some (.file chain' (written old content append))))
    (tight : Tight dev tree → Tight dev' tree')
  /-- A file or an empty directory is removed. -/
  | removed (n : Name83) (k : Key) (node : Node) (path : CString)
    (op_eq : (op = .unlink path ∧ ∃ ch content, node = .file ch content)
      ∨ (op = .rmdir path ∧ ∃ ch, node = .dir ch []))
    (key : pathKey path.1 = some (n :: k)) (there : tree (n :: k) = some node)
    (run : op.call dev = .ok () dev') (changed : Changed tree tree' k n none)
    (tight : Tight dev tree → Tight dev' tree')

section Outcome

variable {dev dev' : Device} {tree : Tree} {op : FsOp}

theorem FsOp.after_ok (h : op.call dev = .ok () dev') : op.after dev = dev' := by rw [FsOp.after, h]

variable {e : FsError}

theorem FsOp.after_error (h : op.call dev = .error e dev') : op.after dev = dev' := by
  rw [FsOp.after, h]

theorem Outcome.after (h : Outcome dev tree op dev' tree') : op.after dev = dev' := by
  cases h with
  | refused _ run | clobbered _ _ _ _ _ _ _ _ _ _ _ run => exact FsOp.after_error run
  | created _ _ _ _ _ _ _ _ _ _ _ run
  | hidden _ _ _ _ _ _ _ _ _ _ run
  | rewritten _ _ _ _ _ _ _ _ _ _ _ run
  | removed _ _ _ _ _ _ _ run => exact FsOp.after_ok run

/-- A call ends in some way, on a device that holds the tree it leaves. -/
def Ends (dev : Device) (tree : Tree) (op : FsOp) : Prop :=
  ∃ dev' tree', Represents dev' tree' ∧ Outcome dev tree op dev' tree'

theorem Ends.unchanged (h : Represents dev tree) (run : op.call dev = .error e dev) :
    Ends dev tree op :=
  ⟨dev, tree, h, .refused e run rfl id⟩

/-- An error after writes to free clusters. -/
theorem Ends.sameTable (h : Represents dev tree)
    (run : op.call dev = .error e { dev with data := data })
    (hdata : ∀ c, fsFatGetEntry dev.fat c ≠ 0 → data c = dev.data c) : Ends dev tree op := by
  have hd : Healthy { dev with data := data } := h.healthy.with ..
  exact ⟨_, tree, h.sameTable hd rfl rfl hdata, .refused e run rfl (fun ht => ht.sameTable rfl)⟩

end Outcome

section Parent

variable {dev : Device} {tree : Tree}

theorem openParent_tree (h : Represents dev tree) (path : CString) :
    (∃ n k c l entries, pathKey path.1 = some (n :: k) ∧ tree k = some (.dir (c :: l) entries)
      ∧ openParent path dev = .ok (dev.fat, c, n) dev) ∨
    ((∃ e, openParent path dev = .error e dev) ∧
      ∀ n k, pathKey path.1 = some (n :: k) → tree (n :: k) = none) := by
  have hload : orFail (query fsLoadFat) .storage dev = .ok dev.fat dev :=
    orFail_ok (query_ok (fsLoadFat_ok h.healthy))
  rw [openParent, bind_ok h.initialized, bind_ok hload]
  rcases resolve_tree h path.1 with
    ⟨n, k, c, l, entries, hkey, hdir, hres⟩ | ⟨⟨e, hres⟩, hnone⟩
  · refine .inl ⟨n, k, c, l, entries, hkey, hdir, ?_⟩
    exact (bind_ok (query_ok hres)).trans rfl
  · exact .inr ⟨⟨e, bind_error (query_error hres)⟩, fun n k hkey => h.absent (hnone n k hkey)⟩

/-- Below a place that is no directory, or an empty one, there is nothing. -/
theorem Represents.below (h : Represents dev tree)
    (hempty : ∀ chain entries, tree k = some (.dir chain entries) → entries = []) (m : Name83) :
    tree (m :: k) = none := by
  by_contra hsome
  obtain ⟨_, hnode⟩ := Option.ne_none_iff_exists'.mp hsome
  obtain ⟨chain, entries, hdir, _, he, _⟩ := h.parent hnode
  rw [hempty chain entries hdir] at he
  cases he

end Parent

section Marker

theorem mem_splitOnP (hb : b ∈ w) : ∀ path : List Byte,
    w ∈ path.splitOnP fsPathIsSeparator → b ∈ path := by
  intro path
  induction path generalizing w with
  | nil =>
    intro hw
    rw [splitOnP_nil, mem_singleton] at hw
    rwa [hw] at hb
  | cons c cs ih =>
    intro hw
    rw [splitOnP_cons_eq_if_modifyHead] at hw
    split at hw
    · rcases mem_cons.mp hw with rfl | hw
      · cases hb
      · exact mem_cons_of_mem c (ih hb hw)
    · cases hsplit : cs.splitOnP fsPathIsSeparator with
      | nil => exact absurd hsplit (splitOnP_ne_nil _ _)
      | cons v =>
        rw [hsplit] at hw ih
        rcases mem_cons.mp hw with rfl | hw
        · rcases mem_cons.mp hb with rfl | hb
          · exact mem_cons_self ..
          · exact mem_cons_of_mem c (ih hb (mem_cons_self ..))
        · exact mem_cons_of_mem c (ih hb (mem_cons_of_mem v hw))

/-- The first byte of each name a path leads through is a byte of the path. -/
theorem pathKey_marker (h : pathKey path = some k) :
    ∀ n ∈ k, ∃ c ∈ path, n.marker = fsCharUpper c := by
  have hall : ∀ (ws : List (List Byte)) (k₀ : Key), (∀ w ∈ ws, ∀ c ∈ w, c ∈ path) →
      nameKey k₀ ws = some k → ∀ n ∈ k, n ∈ k₀ ∨ ∃ c ∈ path, n.marker = fsCharUpper c := by
    intro ws
    induction ws with
    | nil =>
      intro k₀ _ hkey n hn
      cases hkey
      exact .inl hn
    | cons w _ ih =>
      intro k₀ hws hkey n hn
      obtain ⟨m, hm, hrest⟩ := Option.bind_eq_some_iff.mp hkey
      rcases ih (m :: k₀) (fun w hw => hws w (mem_cons_of_mem _ hw)) hrest n hn with hin | hc
      · rcases mem_cons.mp hin with rfl | hin
        · obtain ⟨c, hc, hmark⟩ := fsParse83Name_marker hm
          exact .inr ⟨c, hws w (mem_cons_self ..) c hc, hmark⟩
        · exact .inl hin
      · exact .inr hc
  intro n hn
  refine (hall (fsPathComponents path) [] (fun w hw c hc => ?_) h n hn).resolve_left (not_mem_nil)
  rw [fsPathComponents_eq] at hw
  exact mem_splitOnP hc path (mem_of_mem_filter ((takeWhile_sublist _).subset hw))

theorem fsCharUpper_ne_zero (hc : c ≠ 0) : fsCharUpper c ≠ 0 := by
  rw [fsCharUpper]
  split
  · bv_omega
  · exact hc

/-- A C string has no byte that marks an unused slot. -/
theorem marker_ne_zero {path : CString} {n : Name83} {k : Key}
    (h : pathKey path.1 = some (n :: k)) : n.marker ≠ 0x00 := by
  obtain ⟨_, hc, hmark⟩ := pathKey_marker h n (mem_cons_self ..)
  rw [hmark]
  refine fsCharUpper_ne_zero ?_
  rintro rfl
  exact path.2 hc

end Marker

end Fs
