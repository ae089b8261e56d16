import SecureOS.FsDirProofs
import SecureOS.FsFileProofs

/-! # The tree a filesystem holds

The abstract filesystem is a tree: a partial function from paths to files with a
content and directories with entries, each with the chain of clusters it is kept in.

* `Represents.edit` — what one directory slot and one file or directory become: the
  rule all calls that change the filesystem go through. -/

namespace Fs

open Function List Option

open Sof (Byte)

/-- A place in the tree: the names on the way to it, the last one first. -/
abbrev Key := List Name83

/-- A file with its content, or a directory with its entries. -/
inductive Node where
  | file (chain : List Nat) (content : List Byte)
  | dir (chain : List Nat) (entries : List DirEntry)

namespace Node

/-- The clusters of a node. -/
def chain : Node → List Nat
  | .file chain _ => chain
  | .dir chain _ => chain

/-- The data clusters hold the node. -/
def Holds (data : Nat → Block) : Node → Prop
  | .file chain content => (chainBytes data chain).take content.length = content
  | .dir chain entries => DirOk data chain entries

/-- The entry describes the node. -/
def Matches (e : DirEntry) : Node → Prop
  | .file chain content => e.isDir = false ∧ chain.head? = some e.cluster ∧ e.size = content.length
  | .dir chain _ => e.isDir = true ∧ chain.head? = some e.cluster ∧ e.size = 0

theorem Holds.frame {node : Node} (h : node.Holds data)
    (hdata : ∀ c ∈ node.chain, data' c = data c) : node.Holds data' := by
  cases node with
  | file chain content =>
    have hsame : chainBytes data' chain = chainBytes data chain := chainBytes_congr hdata
    show (chainBytes data' chain).take content.length = content
    rw [hsame]
    exact h
  | dir => exact DirOk.frame h rfl (fun c hc => hdata c (mem_of_mem_take hc))

theorem Matches.head {node : Node} (h : node.Matches e) : node.chain.head? = some e.cluster := by
  cases node <;> exact h.2.1

end Node

/-- The abstract filesystem. -/
abbrev Tree := Key → Option Node

/-- **THE DEVICE HOLDS THE TREE.** -/
structure Represents (dev : Device) (tree : Tree) : Prop where
  healthy : Healthy dev
  boot : fsIsFat32BootSectorValid dev.boot = true
  root : ∃ l entries, tree [] = some (.dir (2 :: l) entries)
  chain : ∀ {k node}, tree k = some node → ChainOk dev.fat node.chain
  holds : ∀ {k node}, tree k = some node → node.Holds dev.data
  parent : ∀ {n k node}, tree (n :: k) = some node → ∃ chain entries,
    tree k = some (.dir chain entries) ∧ ∃ e ∈ entries, e.name = n ∧ node.Matches e
  entry : ∀ {k chain entries e}, tree k = some (.dir chain entries) → e ∈ entries →
    ∃ node, tree (e.name :: k) = some node
  disjoint : ∀ {k k' node node' c}, tree k = some node → tree k' = some node' →
    c ∈ node.chain → c ∈ node'.chain → k = k'

section Facts

variable {tree : Tree} {k : Key} {chain : List Nat} {entries : List DirEntry}

section

variable (h : Represents dev tree)
include h

theorem Represents.dir (hk : tree k = some (.dir chain entries)) : DirOk dev.data chain entries :=
  h.holds hk

theorem Represents.matches (hk : tree k = some (.dir chain entries)) (he : e ∈ entries)
    (hnode : tree (e.name :: k) = some node) : node.Matches e := by
  obtain ⟨_, _, hk', _, he', hname, _⟩ := h.parent hnode
  rw [hk] at hk'
  cases hk'
  rwa [← inj_on_of_nodup_map (h.dir hk).names he' he hname]

/-- Only the root directory has the root cluster. -/
theorem Represents.allocatable (hnode : tree (n :: k) = some node)
    (hc : c ∈ node.chain) : Allocatable c := by
  obtain ⟨_, _, hroot⟩ := h.root
  obtain ⟨_, hmax⟩ := (h.chain hnode).data c hc
  refine ⟨?_, hmax⟩
  rcases Nat.lt_or_ge 2 c with hlt | _
  · exact hlt
  · have heq : c = 2 := by omega
    subst heq
    have hkey := h.disjoint hnode hroot hc (mem_cons_self ..)
    cases hkey

theorem Represents.used (hk : tree k = some node) (hc : c ∈ node.chain) :
    fsFatGetEntry dev.fat c ≠ 0 :=
  (h.chain hk).used hc

/-- The chain of a directory, with its first cluster. -/
theorem Represents.dir_chain (hk : tree k = some (.dir chain entries)) : ∃ c l, chain = c :: l := by
  cases chain with
  | nil => exact absurd rfl (h.chain hk).linked.ne_nil
  | cons c l => exact ⟨c, l, rfl⟩

/-- There is nothing in a place that is no directory. -/
theorem Represents.absent (hno : ∀ chain entries, tree k ≠ some (.dir chain entries)) :
    tree (n :: k) = none := by
  by_contra hsome
  obtain ⟨_, hnode⟩ := ne_none_iff_exists'.mp hsome
  obtain ⟨chain, entries, hdir, _⟩ := h.parent hnode
  exact hno chain entries hdir

/-- What is above a node of the tree is a directory. -/
theorem Represents.above : ∀ (m : Key), m ≠ [] → ∀ {node},
    tree (m ++ k) = some node → ∃ chain entries, tree k = some (.dir chain entries) := by
  intro m
  induction m with
  | nil => exact fun hne => absurd rfl hne
  | cons _ m ih =>
    intro _ _ hnode
    obtain ⟨chain, entries, hm, _⟩ := h.parent hnode
    cases m with
    | nil => exact ⟨chain, entries, hm⟩
    | cons b m => exact ih (cons_ne_nil b m) hm

end

end Facts

/-! ## The place a path names -/

/-- The place a list of components leads to from a place. -/
def nameKey : Key → List (List Byte) → Option Key
  | k, [] => some k
  | k, w :: ws => (fsParse83Name w).bind (fun n => nameKey (n :: k) ws)

/-- The place a path names. -/
def pathKey (path : List Byte) : Option Key := nameKey [] (fsPathComponents path)

theorem nameKey_extends : ∀ (ws : List (List Byte)) {k k' : Key}, nameKey k ws = some k' →
    ∃ m, k' = m ++ k ∧ m.length = ws.length := by
  intro ws
  induction ws with
  | nil =>
    intro _ _ h
    cases h
    exact ⟨[], rfl, rfl⟩
  | cons _ _ ih =>
    intro _ _ h
    obtain ⟨n, _, hn⟩ := bind_eq_some_iff.mp h
    obtain ⟨m, rfl, hlen⟩ := ih hn
    exact ⟨m ++ [n], by simp, by simp [hlen]⟩

theorem nameKey_snoc : ∀ (ws : List (List Byte)) (w : List Byte) (k : Key), nameKey k (ws ++ [w])
      = (nameKey k ws).bind (fun k' => (fsParse83Name w).map (fun n => n :: k')) := by
  intro ws
  induction ws with
  | nil =>
    intro w k
    rw [nil_append, nameKey, nameKey]
    cases fsParse83Name w <;> rfl
  | cons w' _ ih =>
    intro w k
    rw [cons_append, nameKey, nameKey]
    cases fsParse83Name w' with
    | none => rfl
    | some n => exact ih w (n :: k)

/-! ## Resolution on the tree -/

section Resolve

/-- The lookup of a name in a directory of the tree: the slot of a node's entry, or none. -/
theorem find_tree (h : Represents dev tree) (hk : tree k = some (.dir (c :: l) entries))
    (n : Name83) :
    (∃ node e p, tree (n :: k) = some node ∧ e ∈ entries ∧ e.name = n ∧ node.Matches e
      ∧ p ∈ visibleSlots (c :: l) ∧ slotOn dev.data p = .entry e
      ∧ fsFindEntryInDirExt dev c n = .ok ⟨p.1, p.2, true, dev.data p.1⟩) ∨
    (tree (n :: k) = none ∧ ∀ e ∈ entries, e.name ≠ n) := by
  cases hnode : tree (n :: k) with
  | some node =>
    obtain ⟨_, _, hk', e, he, hname, hmatch⟩ := h.parent hnode
    rw [hk] at hk'
    cases hk'
    obtain ⟨p, hp, hslot, hfind⟩ := find_found h.healthy (h.chain hk) (h.dir hk) he
    rw [hname] at hfind
    exact .inl ⟨node, e, p, rfl, he, hname, hmatch, hp, hslot, hfind⟩
  | none =>
    refine .inr ⟨rfl, fun e he hname => ?_⟩
    obtain ⟨_, hsome⟩ := h.entry hk he
    rw [hname, hnode] at hsome
    cases hsome

/-- One step of the resolution from a directory of the tree. -/
theorem step_tree (h : Represents dev tree) (hk : tree k = some (.dir (c :: l) entries))
    (w : List Byte) :
    (∃ n d l' entries', fsParse83Name w = some n ∧ tree (n :: k) = some (.dir (d :: l') entries')
      ∧ fsStepInto dev c w = .ok d) ∨ ((∃ e, fsStepInto dev c w = .error e) ∧
      ∀ n, fsParse83Name w = some n →
        ∀ chain entries, tree (n :: k) ≠ some (.dir chain entries)) := by
  rw [fsStepInto]
  cases hname : fsParse83Name w with
  | none => exact .inr ⟨⟨_, rfl⟩, fun n hn => by cases hn⟩
  | some n =>
    dsimp only
    rcases find_tree h hk n with
      ⟨node, e, p, hnode, _, _, hmatch, _, hslot, hfind⟩ | ⟨hnone, hno⟩
    · have hentry : entryAt (dev.data p.1) p.2 = e := slotAt_entry hslot
      rw [hfind]
      dsimp only
      rw [hentry]
      cases node with
      | file =>
        rw [hmatch.1]
        refine .inr ⟨⟨_, rfl⟩, fun n hn chain' entries' hdir => ?_⟩
        cases hn
        rw [hnode] at hdir
        cases hdir
      | dir _ entries' =>
        obtain ⟨d, l', rfl⟩ := h.dir_chain hnode
        obtain rfl : d = e.cluster := some.inj hmatch.2.1
        rw [hmatch.1]
        exact .inl ⟨n, _, l', entries', rfl, hnode, rfl⟩
    · have hnotdir : ∀ n', some n = some n' → ∀ chain entries,
          tree (n' :: k) ≠ some (.dir chain entries) := by
        intro _ hn _ _ hdir
        cases hn
        rw [hnone] at hdir
        cases hdir
      rcases find_absent h.healthy (h.chain hk) (h.dir hk) hno with
        ⟨_, _, _, _, _, _, hfind⟩ | ⟨_, hfind⟩
      · rw [hfind]
        exact .inr ⟨⟨_, rfl⟩, hnotdir⟩
      · rw [hfind]
        exact .inr ⟨⟨_, rfl⟩, hnotdir⟩

/-- The resolution of components from a directory of the tree. -/
theorem foldlM_tree (h : Represents dev tree) : ∀ (ws : List (List Byte)) {k : Key} {c : Nat}
    {l : List Nat} {entries : List DirEntry}, tree k = some (.dir (c :: l) entries) →
    (∃ k' d l' entries', nameKey k ws = some k' ∧ tree k' = some (.dir (d :: l') entries')
      ∧ ws.foldlM (fsStepInto dev) c = .ok d) ∨ ((∃ e, ws.foldlM (fsStepInto dev) c = .error e) ∧
      ∀ k', nameKey k ws = some k' → ∀ chain entries, tree k' ≠ some (.dir chain entries)) := by
  intro ws
  induction ws with
  | nil => exact fun hk => .inl ⟨_, _, _, _, rfl, hk, rfl⟩
  | cons w ws ih =>
    intro _ _ _ _ hk
    rw [foldlM_cons, nameKey]
    rcases step_tree h hk w with
      ⟨n, _, _, entries', hname, hdir, hstep⟩ | ⟨⟨e, hstep⟩, hnot⟩
    · rw [hstep, hname]
      exact ih hdir
    · rw [hstep]
      refine .inr ⟨⟨e, rfl⟩, fun k' hk' chain' entries' hdir => ?_⟩
      obtain ⟨n, hname, hrest⟩ := bind_eq_some_iff.mp hk'
      obtain ⟨m, rfl, _⟩ := nameKey_extends ws hrest
      -- the place below is a directory, so the place on the way is one
      cases m with
      | nil => exact hnot n hname _ _ hdir
      | cons a m =>
        obtain ⟨_, _, hmid⟩ := h.above (a :: m) (cons_ne_nil a m) hdir
        exact hnot n hname _ _ hmid

/-- **RESOLUTION** of the parent and the leaf, on the tree. -/
theorem resolve_tree (h : Represents dev tree) (path : List Byte) :
    (∃ n k c l entries, pathKey path = some (n :: k) ∧ tree k = some (.dir (c :: l) entries)
      ∧ fsResolveParentAndLeaf dev path = .ok (c, n)) ∨
    ((∃ e, fsResolveParentAndLeaf dev path = .error e) ∧ ∀ n k, pathKey path = some (n :: k) →
        ∀ chain entries, tree k ≠ some (.dir chain entries)) := by
  obtain ⟨_, _, hroot⟩ := h.root
  rw [pathKey]
  rcases eq_nil_or_concat' (fsPathComponents path) with hnil | ⟨ws, w, hcomps⟩
  · rw [fsResolveParentAndLeaf, hnil]
    exact .inr ⟨⟨_, rfl⟩, fun n k hk => by cases hk⟩
  · rw [fsResolveParentAndLeaf_eq hcomps, hcomps, nameKey_snoc]
    rcases foldlM_tree h ws hroot with
      ⟨k, d, l', entries', hkey, hdir, hfold⟩ | ⟨⟨e, hfold⟩, hnot⟩
    · rw [hfold, hkey]
      cases fsParse83Name w with
      | none => exact .inr ⟨⟨.invalidArg, rfl⟩, fun n k hk => by cases hk⟩
      | some n => exact .inl ⟨n, k, d, l', entries', rfl, hdir, rfl⟩
    · rw [hfold]
      refine .inr ⟨⟨e, rfl⟩, fun n k hk => ?_⟩
      obtain ⟨_, hk', hmap⟩ := bind_eq_some_iff.mp hk
      obtain ⟨_, _, hcons'⟩ := map_eq_some_iff.mp hmap
      cases hcons'
      exact hnot _ hk'

end Resolve

/-! ## Reading and listing on the tree -/

/-- What reading a place answers. -/
def readNode (size : Nat) : Option Node → Except FsError (List Byte)
  | none => .error .notFound
  | some (.dir _ _) => .error .notDir
  | some (.file _ content) => if size < content.length then .error .noSpace else .ok content

/-- What reading answers; a path without components names no file. -/
def treeRead (tree : Tree) (size : Nat) : Option Key → Except FsError (List Byte)
  | some (n :: k) => readNode size (tree (n :: k))
  | _ => .error .notFound

/-- What listing a place answers. -/
def listNode (size : Nat) : Option Node → Except FsError (List Byte)
  | some (.dir _ entries) => listText size [] entries
  | _ => .error .notFound

/-- The listing, from the tree. -/
def treeList (tree : Tree) (size : Nat) (key : Option Key) : Except FsError (List Byte) :=
  if size = 0 then .error .invalidArg else listNode size (key.bind tree)

section Read

variable {dev : Device} {tree : Tree}

section

variable (h : Represents dev tree)
include h

theorem readAt_tree (hk : tree k = some (.dir (c :: l) entries)) (n : Name83)
    (size : Nat) : fsReadFileAt c n size dev = readNode size (tree (n :: k)) := by
  rw [fsReadFileAt]
  rcases find_tree h hk n with
    ⟨node, e, p, hnode, _, _, hmatch, _, hslot, hfind⟩ | ⟨hnone, hno⟩
  · have hentry : entryAt (dev.data p.1) p.2 = e := slotAt_entry hslot
    rw [hfind, hnode]
    dsimp only
    rw [hentry]
    cases node with
    | dir =>
      rw [hmatch.1]
      rfl
    | file chain content =>
      obtain ⟨hisfile, hhead, hsize⟩ := hmatch
      rw [hisfile, hsize, fsLoadFat_ok h.healthy]
      by_cases hbig : size < content.length
      · rw [readNode, if_pos hbig, if_pos hbig]
        rfl
      · have hchain : ChainOk dev.fat chain := h.chain hnode
        have hcontent : (chainBytes dev.data chain).take content.length = content := h.holds hnode
        have hlen := length_le_of_take_chainBytes hcontent
        obtain ⟨l', rfl⟩ : ∃ l', chain = e.cluster :: l' := by
          cases chain with
          | nil => cases hhead
          | cons _ l' =>
            cases hhead
            exact ⟨l', rfl⟩
        have hread := fsReadChain_chain h.healthy hchain (Nat.le_refl content.length) hlen
        rw [hcontent] at hread
        rw [readNode, if_neg hbig, if_neg hbig]
        exact hread
  · rw [hnone]
    rcases find_absent h.healthy (h.chain hk) (h.dir hk) hno with
      ⟨_, _, _, _, _, _, hfind⟩ | ⟨_, hfind⟩
    · rw [hfind]
      rfl
    · rw [hfind]
      rfl

theorem Represents.initialized : orFail fsEnsureInitialized .storage dev = .ok () dev :=
  orFail_ok (fsEnsureInitialized_ok h.healthy h.boot)

/-- **READING** is reading the tree. -/
theorem read_tree (path : CString) (size : Nat) : fsReadFileBytes path size dev
      = query (fun _ => treeRead tree size (pathKey path.1)) dev := by
  rw [fsReadFileBytes, bind_ok h.initialized]
  rcases resolve_tree h path.1 with
    ⟨n, k, c, _, _, hkey, hdir, hres⟩ | ⟨⟨_, hres⟩, hnone⟩
  · refine (bind_ok (orFail_ok (query_ok hres))).trans ?_
    rw [hkey]
    show query (fsReadFileAt c n size) dev = _
    rw [query, readAt_tree h hdir]
    rfl
  · refine (bind_error (orFail_error (query_error hres))).trans ?_
    have hmiss : treeRead tree size (pathKey path.1) = .error .notFound := by
      cases hkey : pathKey path.1 with
      | none => rfl
      | some key =>
        cases key with
        | nil => rfl
        | cons n k =>
          rw [treeRead, h.absent (hnone n k hkey)]
          rfl
    rw [query, hmiss]

theorem resolveDir_tree (path : List Byte) :
    (∃ k c l entries, pathKey path = some k ∧ tree k = some (.dir (c :: l) entries)
      ∧ fsResolveDirCluster dev path = .ok c) ∨ ((∃ e, fsResolveDirCluster dev path = .error e) ∧
      ∀ k, pathKey path = some k → ∀ chain entries, tree k ≠ some (.dir chain entries)) := by
  obtain ⟨l, entries, hroot⟩ := h.root
  rw [fsResolveDirCluster]
  by_cases hslash : path = [] ∨ path = [0x2F]
  · have hkey : pathKey path = some [] := by rcases hslash with rfl | rfl <;> rfl
    rw [if_pos hslash]
    exact .inl ⟨[], 2, l, entries, hkey, hroot, rfl⟩
  · rw [if_neg hslash]
    exact foldlM_tree h (fsPathComponents path) hroot

/-- **LISTING** is listing the tree. -/
theorem list_tree (path : CString) (size : Nat) :
    fsListDir path size dev = query (fun _ => treeList tree size (pathKey path.1)) dev := by
  rw [fsListDir]
  by_cases hsize : size = 0
  · have hinvalid : treeList tree size (pathKey path.1) = .error .invalidArg := if_pos hsize
    rw [if_pos hsize, hinvalid]
    rfl
  · have hlist : treeList tree size (pathKey path.1) = listNode size ((pathKey path.1).bind tree) :=
      if_neg hsize
    rw [if_neg hsize, bind_ok h.initialized, query, hlist]
    rcases resolveDir_tree h path.1 with
      ⟨k, _, _, entries, hkey, hdir, hres⟩ | ⟨⟨_, hres⟩, hnot⟩
    · refine (bind_ok (orFail_ok (query_ok hres))).trans ?_
      rw [hkey, bind_some, hdir, query, list_eq h.healthy (h.chain hdir) (h.dir hdir)]
      rfl
    · refine (bind_error (orFail_error (query_error hres))).trans ?_
      have hmiss : listNode size ((pathKey path.1).bind tree) = .error .notFound := by
        cases hkey : pathKey path.1 with
        | none => rfl
        | some k =>
          rw [bind_some]
          cases hnode : tree k with
          | none => rfl
          | some node =>
            cases node with
            | file => rfl
            | dir chain entries => exact absurd hnode (hnot k hkey chain entries)
      rw [hmiss]

end

end Read

/-! ## Changes of the tree -/

/-- A directory and one place in it get new values. -/
def Tree.edit (tree : Tree) (k : Key) (n : Name83) (parent : Node) (child : Option Node) : Tree :=
  update (update tree k (some parent)) (n :: k) child

section Edit

variable {dev dev' : Device} {tree : Tree} {k q : Key} {n : Name83} {chain chain' : List Nat}
  {entries entries' : List DirEntry} {child : Option (DirEntry × Node)} {node : Node}

theorem key_ne_cons (n : Name83) (k : Key) : k ≠ n :: k := by
  intro heq
  have hlen := congrArg List.length heq
  rw [length_cons] at hlen
  omega

section

variable (parent : Node) (c : Option Node)

theorem edit_child : tree.edit k n parent c (n :: k) = c := update_self ..

theorem edit_parent : tree.edit k n parent c k = some parent := by
  rw [Tree.edit, update_of_ne (key_ne_cons n k), update_self]

theorem edit_other (hc : q ≠ n :: k) (hk : q ≠ k) : tree.edit k n parent c q = tree q := by
  rw [Tree.edit, update_of_ne hc, update_of_ne hk]

end

/-- The clusters of a place of the tree. -/
def chainAt (tree : Tree) (k : Key) : List Nat := (tree k).elim [] Node.chain

/-- **A CHANGE OF ONE DIRECTORY AND ONE PLACE IN IT.**  The clusters it takes were theirs
    or free, and clusters in use elsewhere keep their table entry and their bytes. -/
structure Edit (dev dev' : Device) (tree : Tree) (k : Key) (n : Name83)
    (chain chain' : List Nat) (entries entries' : List DirEntry)
    (child : Option (DirEntry × Node)) : Prop where
  healthy : Healthy dev'
  boot : dev'.boot = dev.boot
  below : ∀ m, tree (m :: n :: k) = none
  ok : ChainOk dev'.fat chain'
  head : chain'.head? = chain.head?
  dir : DirOk dev'.data chain' entries'
  entries_iff : ∀ x, x ∈ entries' ↔ (x ∈ entries ∧ x.name ≠ n) ∨ child.map Prod.fst = some x
  child_name : ∀ {e node}, child = some (e, node) → e.name = n ∧ node.Matches e
  child_ok : ∀ {e node}, child = some (e, node) → ChainOk dev'.fat node.chain
    ∧ node.Holds dev'.data
  child_empty : ∀ {e ch es}, child = some (e, .dir ch es) → es = []
  fresh : ∀ c ∈ chain', c ∈ chain ∨ fsFatGetEntry dev.fat c = 0
  child_fresh : ∀ {e node}, child = some (e, node) → ∀ c ∈ node.chain,
    c ∉ chain' ∧ (c ∈ chainAt tree (n :: k) ∨ fsFatGetEntry dev.fat c = 0)
  frame : ∀ c, fsFatGetEntry dev.fat c ≠ 0 → c ∉ chain → c ∉ chainAt tree (n :: k) →
    fsFatGetEntry dev'.fat c = fsFatGetEntry dev.fat c ∧ dev'.data c = dev.data c

/-- The three kinds of places of the tree after the change. -/
theorem edit_cases (hq : tree.edit k n (.dir chain' entries') (child.map Prod.snd) q = some node) :
    (q = n :: k ∧ ∃ e, child = some (e, node)) ∨ (q = k ∧ node = .dir chain' entries')
      ∨ (q ≠ n :: k ∧ q ≠ k ∧ tree q = some node) := by
  by_cases hc : q = n :: k
  · rw [hc, edit_child] at hq
    obtain ⟨⟨e, _⟩, hchild, rfl⟩ := map_eq_some_iff.mp hq
    exact .inl ⟨hc, e, hchild⟩
  · by_cases hk : q = k
    · rw [hk, edit_parent] at hq
      exact .inr (.inl ⟨hk, (some.inj hq).symm⟩)
    · rw [edit_other _ _ hc hk] at hq
      exact .inr (.inr ⟨hc, hk, hq⟩)

variable {c : Nat}

/-- A cluster of another place is neither the directory's nor the place's. -/
theorem Represents.elsewhere (h : Represents dev tree) (hk : tree k = some (.dir chain entries))
    (hqc : q ≠ n :: k) (hqk : q ≠ k) (hq : tree q = some node) (hc : c ∈ node.chain) :
    c ∉ chain ∧ c ∉ chainAt tree (n :: k) := by
  refine ⟨fun hin => hqk (h.disjoint hq hk hc hin), fun hin => hqc ?_⟩
  rw [chainAt] at hin
  cases hn : tree (n :: k) with
  | none =>
    rw [hn] at hin
    cases hin
  | some =>
    rw [hn] at hin
    exact h.disjoint hq hn hc hin

/-- Two places after the change share no cluster, if the first one is of the change. -/
theorem Edit.apart (he : Edit dev dev' tree k n chain chain' entries entries' child)
    (h : Represents dev tree) (hk : tree k = some (.dir chain entries)) (hqc : q ≠ n :: k)
    (hqk : q ≠ k) (hq : tree q = some node) (hc : c ∈ node.chain) :
    c ∉ chain' ∧ ∀ {e node'}, child = some (e, node') → c ∉ node'.chain := by
  obtain ⟨hout, hout'⟩ := h.elsewhere hk hqc hqk hq hc
  have hused := h.used hq hc
  refine ⟨fun hin => ?_, fun hchild hin => ?_⟩
  · exact (he.fresh c hin).elim hout hused
  · exact (he.child_fresh hchild c hin).2.elim hout' hused

/-- A directory and a place in it share no cluster. -/
theorem Represents.apart (h : Represents dev tree) (hk : tree k = some (.dir chain entries))
    (hnode : tree (n :: k) = some node) : ∀ c ∈ chain, c ∉ node.chain :=
  fun _ hc hin => key_ne_cons n k (h.disjoint hk hnode hc hin)

section

variable (he : Edit dev dev' tree k n chain chain' entries entries' child)
include he

section

variable (h : Represents dev tree) (hk : tree k = some (.dir chain entries))
include h hk

/-- Places that are not of the change keep their clusters. -/
theorem Edit.keeps (hqc : q ≠ n :: k)
    (hqk : q ≠ k) (hq : tree q = some node) (hc : c ∈ node.chain) :
    fsFatGetEntry dev'.fat c = fsFatGetEntry dev.fat c ∧ dev'.data c = dev.data c := by
  obtain ⟨hout, hout'⟩ := h.elsewhere hk hqc hqk hq hc
  exact he.frame c (h.used hq hc) hout hout'

theorem Edit.root (c : Option Node) :
    ∃ l es, tree.edit k n (.dir chain' entries') c [] = some (.dir (2 :: l) es) := by
  obtain ⟨l, es, hroot⟩ := h.root
  by_cases hk0 : k = []
  · subst hk0
    rw [hroot] at hk
    cases hk
    have hhead := he.head
    cases chain' with
    | nil => cases hhead
    | cons _ l' =>
      cases hhead
      exact ⟨l', entries', edit_parent ..⟩
  · exact ⟨l, es, by rw [edit_other _ _ (cons_ne_nil n k).symm (Ne.symm hk0)]; exact hroot⟩

/-- Every place of the changed tree stands in a directory with its entry. -/
theorem Edit.parent
    (hq : tree.edit k n (.dir chain' entries') (child.map Prod.snd) (m :: q) = some node) :
    ∃ ch es, tree.edit k n (.dir chain' entries') (child.map Prod.snd) q = some (.dir ch es)
      ∧ ∃ e ∈ es, e.name = m ∧ node.Matches e := by
  rcases edit_cases hq with ⟨heq, e, hchild⟩ | ⟨rfl, rfl⟩ | ⟨hqc, _, hold⟩
  · obtain ⟨rfl, rfl⟩ := cons_eq_cons.mp heq
    obtain ⟨hname, hmatch⟩ := he.child_name hchild
    refine ⟨chain', entries', edit_parent .., e, ?_, hname, hmatch⟩
    exact (he.entries_iff e).mpr (.inr (by rw [hchild]; rfl))
  · -- the directory of the change, seen from above
    obtain ⟨ch, es, hq', e, hmem, hname, hmatch⟩ := h.parent hk
    refine ⟨ch, es, ?_, e, hmem, hname, hmatch.1, he.head.trans hmatch.2.1, hmatch.2.2⟩
    rw [edit_other _ _ (fun heq => ?_) (key_ne_cons m q)]
    · exact hq'
    · have hlen := congrArg List.length heq
      simp only [length_cons] at hlen
      omega
  · obtain ⟨ch, es, hq', e, hmem, hname, hmatch⟩ := h.parent hold
    by_cases hqk' : q = k
    · subst hqk'
      rw [hk] at hq'
      cases hq'
      refine ⟨chain', entries', edit_parent .., e, ?_, hname, hmatch⟩
      refine (he.entries_iff e).mpr (.inl ⟨hmem, fun heq => hqc ?_⟩)
      rw [← hname, heq]
    · refine ⟨ch, es, ?_, e, hmem, hname, hmatch⟩
      rw [edit_other _ _ (fun heq => ?_) hqk']
      · exact hq'
      · rw [heq, he.below m] at hold
        cases hold

/-- Every entry of a directory of the changed tree has its place. -/
theorem Edit.entry
    (hq : tree.edit k n (.dir chain' entries') (child.map Prod.snd) q = some (.dir ch es))
    (hmem : e ∈ es) :
    ∃ node, tree.edit k n (.dir chain' entries') (child.map Prod.snd) (e.name :: q)
      = some node := by
  rcases edit_cases hq with ⟨_, _, hchild⟩ | ⟨rfl, hdir⟩ | ⟨_, hqk, hold⟩
  · rw [he.child_empty hchild] at hmem
    cases hmem
  · cases hdir
    rcases (he.entries_iff e).mp hmem with ⟨hin, hne⟩ | hnew
    · obtain ⟨node, hnode⟩ := h.entry hk hin
      refine ⟨node, ?_⟩
      rw [edit_other _ _ (fun heq => hne (cons_eq_cons.mp heq).1) (key_ne_cons e.name q).symm]
      exact hnode
    · obtain ⟨⟨_, node⟩, hchild, rfl⟩ := map_eq_some_iff.mp hnew
      refine ⟨node, ?_⟩
      rw [(he.child_name hchild).1, edit_child, hchild]
      rfl
  · obtain ⟨node, hnode⟩ := h.entry hold hmem
    by_cases hup : e.name :: q = k
    · exact ⟨.dir chain' entries', by rw [hup]; exact edit_parent ..⟩
    · refine ⟨node, ?_⟩
      rw [edit_other _ _ (fun heq => hqk (cons_eq_cons.mp heq).2) hup]
      exact hnode

/-- No two places of the changed tree share a cluster. -/
theorem Edit.disjoint (hq : tree.edit k n (.dir chain' entries') (child.map Prod.snd) q = some node)
    (hq' : tree.edit k n (.dir chain' entries') (child.map Prod.snd) q' = some node')
    (hc : c ∈ node.chain) (hc' : c ∈ node'.chain) : q = q' := by
  rcases edit_cases hq with ⟨rfl, _, hchild⟩ | ⟨rfl, rfl⟩ | ⟨hqc, hqk, hold⟩
  · rcases edit_cases hq' with ⟨rfl, _⟩ | ⟨rfl, rfl⟩ | ⟨hqc', hqk', hold'⟩
    · rfl
    · exact absurd hc' (he.child_fresh hchild c hc).1
    · exact absurd hc ((he.apart h hk hqc' hqk' hold' hc').2 hchild)
  · rcases edit_cases hq' with ⟨rfl, _, hchild'⟩ | ⟨rfl, _⟩ | ⟨hqc', hqk', hold'⟩
    · exact absurd hc (he.child_fresh hchild' c hc').1
    · rfl
    · exact absurd hc (he.apart h hk hqc' hqk' hold' hc').1
  · rcases edit_cases hq' with ⟨rfl, _, hchild'⟩ | ⟨rfl, rfl⟩ | ⟨_, _, hold'⟩
    · exact absurd hc' ((he.apart h hk hqc hqk hold hc).2 hchild')
    · exact absurd hc' (he.apart h hk hqc hqk hold hc).1
    · exact h.disjoint hold hold' hc hc'

end

end

/-- **THE EDIT RULE**: the device after the change holds the changed tree. -/
theorem Represents.edit (h : Represents dev tree) (hk : tree k = some (.dir chain entries))
    (he : Edit dev dev' tree k n chain chain' entries entries' child) :
    Represents dev' (tree.edit k n (.dir chain' entries') (child.map Prod.snd)) where
  healthy := he.healthy
  boot := by
    rw [he.boot]
    exact h.boot
  root := he.root h hk _
  chain := by
    intro _ _ hq
    rcases edit_cases hq with ⟨_, _, hchild⟩ | ⟨_, rfl⟩ | ⟨hqc, hqk, hold⟩
    · exact (he.child_ok hchild).1
    · exact he.ok
    · exact (h.chain hold).frame (fun c hc => (he.keeps h hk hqc hqk hold hc).1)
  holds := by
    intro _ _ hq
    rcases edit_cases hq with ⟨_, _, hchild⟩ | ⟨_, rfl⟩ | ⟨hqc, hqk, hold⟩
    · exact (he.child_ok hchild).2
    · exact he.dir
    · exact (h.holds hold).frame (fun c hc => (he.keeps h hk hqc hqk hold hc).2)
  parent := he.parent h hk
  entry := he.entry h hk
  disjoint := he.disjoint h hk

end Edit

/-- A device with the same table, and the same bytes in every cluster in use. -/
theorem Represents.sameTable (h : Represents dev tree)
    (hd : Healthy dev') (hboot : dev'.boot = dev.boot) (hfat : dev'.fat = dev.fat)
    (hdata : ∀ c, fsFatGetEntry dev.fat c ≠ 0 → dev'.data c = dev.data c) :
    Represents dev' tree := by
  refine ⟨hd, by rw [hboot]; exact h.boot, h.root, ?_, ?_, h.parent, h.entry, h.disjoint⟩
  · intro _ _ hk
    rw [hfat]
    exact h.chain hk
  · intro _ _ hk
    exact (h.holds hk).frame (fun c hc => hdata c (h.used hk hc))

end Fs
