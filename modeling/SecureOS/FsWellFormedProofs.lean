import SecureOS.FsRunProofs

/-! # Well-formed disks

The disk as it is read by a checker: the directories and chains that can be reached from the
root directory, without the tree.

* `wellFormed_run` — every run of calls leaves a well-formed disk, if all bytes of the paths are
  printable and no blanks and no directory has more than 2048 entries. -/

namespace Fs

open Sof (Byte)
open List
open LinkChain (Linked)
open MachineRun (run Along)

/-! ## The disk without the tree -/

/-- The chain from a cluster to the end-of-chain mark. -/
def ChainFrom (dev : Device) (c : Nat) (chain : List Nat) : Prop :=
  chain.head? = some c ∧ Linked (fatLink dev.fat) chain

/-- A slot of the directory at a cluster holds an entry. -/
def SlotIn (dev : Device) (c : Nat) (p : Nat × Nat) (e : DirEntry) : Prop :=
  ∃ chain, ChainFrom dev c chain ∧ p ∈ slotsOf chain ∧ slotOn dev.data p = .entry e

/-- The directories of the disk, by their first cluster. -/
inductive DirOn (dev : Device) : Nat → Prop where
  | root : DirOn dev 2
  | sub {c : Nat} {p : Nat × Nat} {e : DirEntry} (above : DirOn dev c)
      (slot : SlotIn dev c p e) (isDir : e.isDir = true) : DirOn dev e.cluster

/-- The chains of the disk, each with the slot of its entry, and none for the root directory. -/
inductive Owns (dev : Device) : Option (Nat × Nat) → List Nat → Prop where
  | root {chain : List Nat} (from_ : ChainFrom dev 2 chain) : Owns dev none chain
  | entry {c : Nat} {p : Nat × Nat} {e : DirEntry} {chain : List Nat} (above : DirOn dev c)
      (slot : SlotIn dev c p e) (from_ : ChainFrom dev e.cluster chain) : Owns dev (some p) chain

/-- **A WELL-FORMED DISK.** -/
structure WellFormed (dev : Device) : Prop where
  /-- The root directory has a chain, behind its fixed cluster in the allocatable range. -/
  root : ∃ l, ChainFrom dev 2 (2 :: l) ∧ (2 :: l).Nodup ∧ ∀ x ∈ l, Allocatable x
  /-- Each entry has a chain in the allocatable range that is long enough. -/
  entry : ∀ {c p e}, DirOn dev c → SlotIn dev c p e → ∃ chain, ChainFrom dev e.cluster chain
    ∧ chain.Nodup ∧ (∀ x ∈ chain, Allocatable x) ∧ e.size ≤ 512 * chain.length
  /-- Every chain ends in the mark. -/
  ends : ∀ {o chain last}, Owns dev o chain → chain.getLast? = some last →
    fsFatGetEntry dev.fat last = fatEntryEoc
  /-- The chains of different entries are disjoint. -/
  disjoint : ∀ {o o' chain chain' x}, Owns dev o chain → Owns dev o' chain' → x ∈ chain →
    x ∈ chain' → o = o'
  /-- Each cluster in use belongs to exactly one chain. -/
  owned : ∀ c, DataCluster c → fsFatGetEntry dev.fat c ≠ 0 →
    ∃! o, ∃ chain, Owns dev o chain ∧ c ∈ chain
  /-- The names of a directory are different. -/
  names : ∀ {c chain}, DirOn dev c → ChainFrom dev c chain →
    ((entriesIn dev.data (slotsOf chain)).map DirEntry.name).Nodup

/-! ## From the tree to the disk -/

section Disk

variable {dev : Device} {tree : Tree} {k : Key} {c : Nat}

theorem ChainFrom.unique (h : ChainFrom dev c chain)
    (h' : ChainFrom dev c chain') : chain = chain' := by
  obtain ⟨_, rfl⟩ := List.head?_eq_some_iff.mp h.1
  obtain ⟨_, rfl⟩ := List.head?_eq_some_iff.mp h'.1
  rw [h.2.unique h'.2]

section

variable (h : Represents dev tree) (hk : tree k = some (.dir (c :: l) entries))
include h hk

theorem Represents.chainFrom : ChainFrom dev c (c :: l) := ⟨rfl, (h.chain hk).linked⟩

/-- An entry of a directory of the tree stands in a slot. -/
theorem Represents.slot (he : e ∈ entries) :
    ∃ p ∈ visibleSlots (c :: l), slotOn dev.data p = .entry e := by
  rw [← (h.dir hk).entries_eq] at he
  exact mem_entriesIn.mp he

end

theorem mem_slotsOf_visible (hp : p ∈ visibleSlots chain) : p ∈ slotsOf chain :=
  mem_slotsOf.mpr ⟨mem_chain_of_visible hp, (mem_slotsOf.mp hp).2⟩

theorem Represents.dirOn (h : Represents dev tree) : ∀ (k : Key) {c : Nat} {l : List Nat}
    {entries : List DirEntry}, tree k = some (.dir (c :: l) entries) → DirOn dev c := by
  intro k
  induction k with
  | nil =>
    intro c _ _ hk
    obtain ⟨_, _, hroot⟩ := h.root
    rw [hk] at hroot
    cases hroot
    exact .root
  | cons _ _ ih =>
    intro c _ _ hk
    obtain ⟨_, _, hup, e, he, _, hmatch⟩ := h.parent hk
    obtain ⟨_, _, rfl⟩ := h.dir_chain hup
    obtain ⟨_, hp, hslot⟩ := h.slot hup he
    obtain rfl : c = e.cluster := Option.some.inj hmatch.2.1
    exact .sub (ih hup) ⟨_, h.chainFrom hup, mem_slotsOf_visible hp, hslot⟩ hmatch.1

/-! ## From the disk to the tree -/

theorem Tight.visible (ht : Tight dev tree) (hk : tree k = some (.dir chain entries)) :
    visibleSlots chain = slotsOf chain := by
  rw [visibleSlots, take_of_length_le (ht.short hk)]

theorem SlotIn.inTree (h : Represents dev tree) (ht : Tight dev tree)
    (hk : tree k = some (.dir (c :: l) entries)) (hs : SlotIn dev c p e) :
    p ∈ visibleSlots (c :: l) ∧ slotOn dev.data p = .entry e ∧ e ∈ entries := by
  obtain ⟨_, hfrom, hp, hslot⟩ := hs
  rw [hfrom.unique (h.chainFrom hk), ← ht.visible hk] at hp
  refine ⟨hp, hslot, ?_⟩
  rw [← (h.dir hk).entries_eq]
  exact mem_entriesIn.mpr ⟨p, hp, hslot⟩

theorem DirOn.inTree (h : Represents dev tree) (ht : Tight dev tree) (hd : DirOn dev c) :
    ∃ k l entries, tree k = some (.dir (c :: l) entries) := by
  induction hd with
  | root =>
    obtain ⟨l, entries, hroot⟩ := h.root
    exact ⟨[], l, entries, hroot⟩
  | sub _ slot isDir ih =>
    obtain ⟨_, _, _, hk⟩ := ih
    obtain ⟨_, _, he⟩ := slot.inTree h ht hk
    obtain ⟨node, hnode⟩ := h.entry hk he
    have hmatch := h.matches hk he hnode
    cases node with
    | file =>
      rw [hmatch.1] at isDir
      cases isDir
    | dir _ es =>
      obtain ⟨l', rfl⟩ := List.head?_eq_some_iff.mp hmatch.2.1
      exact ⟨_, l', es, hnode⟩

/-- The places of the tree whose chain a slot, or the root directory, owns. -/
def KeyOf (dev : Device) (tree : Tree) (k : Key) : Option (Nat × Nat) → Prop
  | none => k = []
  | some p => ∃ k' c l entries e, tree k' = some (.dir (c :: l) entries)
      ∧ p ∈ visibleSlots (c :: l) ∧ slotOn dev.data p = .entry e ∧ e ∈ entries ∧ k = e.name :: k'

/-- A chain on the disk is the chain of a place of the tree. -/
theorem Owns.inTree (h : Represents dev tree) (ht : Tight dev tree)
    (ho : Owns dev o chain) : ∃ k node, tree k = some node ∧ node.chain = chain
      ∧ KeyOf dev tree k o := by
  cases ho with
  | root from_ =>
    obtain ⟨l, entries, hroot⟩ := h.root
    exact ⟨[], _, hroot, (h.chainFrom hroot).unique from_, rfl⟩
  | entry above slot from_ =>
    obtain ⟨k, l, entries, hk⟩ := above.inTree h ht
    obtain ⟨hp, hslot, he⟩ := slot.inTree h ht hk
    obtain ⟨node, hnode⟩ := h.entry hk he
    have hfrom : ChainFrom dev _ node.chain :=
      ⟨(h.matches hk he hnode).head, (h.chain hnode).linked⟩
    exact ⟨_, node, hnode, hfrom.unique from_, k, _, l, entries, _, hk, hp, hslot, he, rfl⟩

/-- Two slots of a directory that hold the same name are one slot. -/
theorem slot_unique (hnd : ((entriesIn data ps).map DirEntry.name).Nodup) (hp : p ∈ ps)
    (hq : q ∈ ps) (he : slotOn data p = .entry e) (he' : slotOn data q = .entry e')
    (hname : e.name = e'.name) : p = q := by
  rw [Nodup, pairwise_map, entriesIn, pairwise_filterMap] at hnd
  by_contra hne
  refine @Pairwise.forall _ _ _ ⟨?_⟩ hnd _ hp _ hq hne e (Slot.toEntry_eq_some.mpr he) e'
    (Slot.toEntry_eq_some.mpr he') hname
  exact fun _ _ h _ hb _ hb' => (h _ hb' _ hb).symm

theorem KeyOf.unique (h : Represents dev tree)
    (ho : KeyOf dev tree k o) (ho' : KeyOf dev tree k o') : o = o' := by
  cases o with
  | none =>
    cases o' with
    | none => rfl
    | some =>
      obtain ⟨_, _, _, _, _, _, _, _, _, hkey⟩ := ho'
      rw [show k = [] from ho] at hkey
      cases hkey
  | some =>
    obtain ⟨_, _, _, _, _, hk₁, hp, hslot, _, hkey₁⟩ := ho
    cases o' with
    | none =>
      rw [show k = [] from ho'] at hkey₁
      cases hkey₁
    | some =>
      obtain ⟨_, _, _, _, _, hk₂, hq, hslot', _, hkey₂⟩ := ho'
      obtain ⟨hname, rfl⟩ := cons_eq_cons.mp (hkey₁.symm.trans hkey₂)
      rw [hk₁] at hk₂
      cases hk₂
      have hnd := (h.dir hk₁).names
      rw [← (h.dir hk₁).entries_eq] at hnd
      rw [slot_unique hnd hp hq hslot hslot' hname]

theorem Represents.owner (h : Represents dev tree) (hk : tree k = some node) :
    ∃ o, Owns dev o node.chain := by
  cases k with
  | nil =>
    obtain ⟨_, _, hroot⟩ := h.root
    rw [hk] at hroot
    cases hroot
    exact ⟨none, .root (h.chainFrom hk)⟩
  | cons _ k =>
    obtain ⟨_, _, hup, _, he, _, hmatch⟩ := h.parent hk
    obtain ⟨_, _, rfl⟩ := h.dir_chain hup
    obtain ⟨p, hp, hslot⟩ := h.slot hup he
    exact ⟨some p, .entry (h.dirOn k hup) ⟨_, h.chainFrom hup, mem_slotsOf_visible hp, hslot⟩
      ⟨hmatch.head, (h.chain hk).linked⟩⟩

/-- **A TREE WITHOUT LOST CLUSTERS** is on a well-formed disk. -/
theorem Represents.wellFormed (h : Represents dev tree) (ht : Tight dev tree) : WellFormed dev := by
  have hdisjoint : ∀ {o o' chain chain' x}, Owns dev o chain → Owns dev o' chain' → x ∈ chain →
      x ∈ chain' → o = o' := by
    intro o _ _ _ x ho ho' hx hx'
    obtain ⟨_, node, hk, rfl, hkey⟩ := ho.inTree h ht
    obtain ⟨_, _, hk', rfl, hkey'⟩ := ho'.inTree h ht
    obtain rfl := h.disjoint hk hk' hx hx'
    exact hkey.unique h hkey'
  refine ⟨?_, ?_, ?_, hdisjoint, ?_, ?_⟩
  · obtain ⟨l, _, hroot⟩ := h.root
    exact ⟨l, h.chainFrom hroot, (h.chain hroot).nodup, (h.chain hroot).tail⟩
  · intro c _ _ hd hs
    obtain ⟨_, _, _, hk⟩ := hd.inTree h ht
    obtain ⟨_, _, he⟩ := hs.inTree h ht hk
    obtain ⟨node, hnode⟩ := h.entry hk he
    have hmatch := h.matches hk he hnode
    refine ⟨node.chain, ⟨hmatch.head, (h.chain hnode).linked⟩, (h.chain hnode).nodup,
      fun x hx => h.allocatable hnode hx, ?_⟩
    cases node with
    | file =>
      rw [hmatch.2.2]
      exact length_le_of_take_chainBytes (h.holds hnode)
    | dir =>
      rw [hmatch.2.2]
      exact Nat.zero_le _
  · intro o _ _ ho hlast
    obtain ⟨_, node, hk, rfl, _⟩ := ho.inTree h ht
    exact fatLink_eq_none.mp ((h.chain hk).linked.last hlast)
  · intro c hc hused
    obtain ⟨_, node, hk, hin⟩ := ht.owned c hc hused
    obtain ⟨o, ho⟩ := h.owner hk
    refine ⟨o, ⟨node.chain, ho, hin⟩, ?_⟩
    rintro _ ⟨_, ho', hin'⟩
    exact hdisjoint ho' ho hin' hin
  · intro _ _ hd hfrom
    obtain ⟨_, _, _, hk⟩ := hd.inTree h ht
    rw [hfrom.unique (h.chainFrom hk), ← ht.visible hk, ← dirEntries, (h.dir hk).entries_eq]
    exact (h.dir hk).names

end Disk

/-! ## Runs -/

/-- No directory has more than 2048 entries. -/
def Small (dev : Device) : Prop :=
  ∀ c chain, DirOn dev c → ChainFrom dev c chain →
    (entriesIn dev.data (slotsOf chain)).length ≤ 2048

/-- All bytes of the path are printable ASCII and no blanks. -/
def Plain (path : CString) : Prop := ∀ b ∈ path.1, 0x21 ≤ b ∧ b ≤ 0x7E

instance decidablePlain (path : CString) : Decidable (Plain path) :=
  inferInstanceAs (Decidable (∀ b ∈ path.1, 0x21 ≤ b ∧ b ≤ 0x7E))

/-- The condition on the calls of a run: a plain path, and no directory grows too large. -/
def Tame (dev : Device) (op : FsOp) : Prop := Plain op.path ∧ Small (op.after dev)

section Runs

variable {dev : Device}

theorem plain_marker (hplain : Plain path)
    (hkey : pathKey path.1 = some (n :: k)) : n.marker ≠ 0xE5 := by
  obtain ⟨b, hb, hmark⟩ := pathKey_marker hkey n (mem_cons_self ..)
  obtain ⟨_, _⟩ := hplain b hb
  rw [hmark, fsCharUpper]
  split <;> bv_omega

/-- A directory of at most 128 clusters has at most 2048 entries. -/
theorem Tight.small (h : Represents dev tree) (ht : Tight dev tree) : Small dev := by
  intro c _ hd hfrom
  obtain ⟨_, l, _, hk⟩ := hd.inTree h ht
  rw [hfrom.unique (h.chainFrom hk)]
  have hlen := ht.short hk
  have hslots : (entriesIn dev.data (slotsOf (c :: l))).length ≤ (slotsOf (c :: l)).length :=
    length_filterMap_le ..
  rw [slotsOf_length] at hslots
  omega

/-- A new entry behind 2048 others makes the directory too large. -/
theorem tame_seen (h' : Represents dev' tree') (ht : Tight dev tree)
    (hplain : Plain path) (hsmall : Small dev') (hkey : pathKey path.1 = some (n :: k))
    (habove : tree k = some (.dir chain entries))
    (hbeyond : n.marker ≠ 0xE5 → chain.length ≤ 128 → ∃ chain' entries',
      tree' k = some (.dir chain' entries')
        ∧ 2048 < (entriesIn dev'.data (slotsOf chain')).length) : False := by
  obtain ⟨_, _, hk', _⟩ := hbeyond (plain_marker hplain hkey) (ht.short habove)
  obtain ⟨c, _, rfl⟩ := h'.dir_chain hk'
  have hle := hsmall c _ (h'.dirOn k hk') (h'.chainFrom hk')
  omega

theorem Outcome.small (hout : Outcome dev tree op dev' tree') (htame : Tame dev op) :
    Small dev' := by
  have hsmall := htame.2
  rw [hout.after] at hsmall
  exact hsmall

/-- **ONE TAME CALL** keeps the tree without lost clusters. -/
theorem Outcome.tight (hout : Outcome dev tree op dev' tree') (h' : Represents dev' tree')
    (htame : Tame dev op) (ht : Tight dev tree) : Tight dev' tree' := by
  have hsmall := hout.small htame
  cases hout with
  | refused _ _ _ tight
  | clobbered _ _ _ _ _ _ _ _ _ _ _ _ _ _ tight
  | created _ _ _ _ _ _ _ _ _ _ _ _ _ tight => exact tight ht
  | hidden _ _ _ _ _ op_eq key above _ _ _ _ beyond =>
    rcases op_eq with ⟨_, _, rfl⟩ | rfl
    · exact (tame_seen h' ht htame.1 hsmall key above beyond).elim
    · exact (tame_seen h' ht htame.1 hsmall key above beyond).elim
  | rewritten _ _ _ _ _ _ _ _ _ _ _ _ _ tight
  | removed _ _ _ _ _ _ _ _ _ tight => exact tight ht

/-- Every tame run leaves a tree without lost clusters. -/
theorem tame_run (hd : Healthy raw) (ops : List FsOp)
    (htame : Along FsOp.after Tame (formatted raw) ops) :
    ∃ tree, Represents (run FsOp.after (formatted raw) ops) tree
      ∧ Tight (run FsOp.after (formatted raw) ops) tree := by
  refine MachineRun.run_inv (I := fun dev => ∃ tree, Represents dev tree ∧ Tight dev tree) ?_ ops _
    ⟨emptyTree, formatted_tree hd, formatted_tight⟩ htame
  rintro _ op ⟨_, h, ht⟩ hop
  obtain ⟨_, tree', h', hout⟩ := call_outcome h op
  rw [hout.after]
  exact ⟨tree', h', hout.tight h' hop ht⟩

/-- A plain path of one component, while the root directory has one cluster. -/
def AtRoot (dev : Device) (op : FsOp) : Prop :=
  Plain op.path ∧ (pathKey op.path.1).map length = some 1 ∧ fatLink dev.fat 2 = none

instance decidableAtRoot (dev : Device) (op : FsOp) : Decidable (AtRoot dev op) :=
  inferInstanceAs (Decidable (_ ∧ _ ∧ _))

/-- The root directory has room for one entry more. -/
theorem Tight.tame (h : Represents dev tree) (ht : Tight dev tree) (hroot : AtRoot dev op) :
    Tame dev op := by
  obtain ⟨hplain, hlength, hlink⟩ := hroot
  refine ⟨hplain, ?_⟩
  obtain ⟨_, _, h', hout⟩ := call_outcome h op
  rw [hout.after]
  refine Tight.small h' ?_
  cases hout with
  | refused _ _ _ tight
  | clobbered _ _ _ _ _ _ _ _ _ _ _ _ _ _ tight
  | created _ _ _ _ _ _ _ _ _ _ _ _ _ tight
  | rewritten _ _ _ _ _ _ _ _ _ _ _ _ _ tight
  | removed _ _ _ _ _ _ _ _ _ tight => exact tight ht
  | hidden n k _ _ _ op_eq key above _ unseen =>
    have hkey : pathKey op.path.1 = some (n :: k) := by
      rcases op_eq with ⟨_, _, rfl⟩ | rfl
      · exact key
      · exact key
    rw [hkey, Option.map_some, length_cons, Option.some.injEq, Nat.add_eq_right,
      length_eq_zero_iff] at hlength
    subst hlength
    obtain ⟨l, _, hr⟩ := h.root
    obtain ⟨rfl, -⟩ := Node.dir.inj (Option.some.inj (above.symm.trans hr))
    have hnil : l = [] := head?_eq_none_iff.mp ((h.chain above).linked.next_head.symm.trans hlink)
    subst hnil
    rcases unseen with hmark | hroom
    · exact absurd hmark (plain_marker hplain hkey)
    · exact absurd (.inl (by decide : 1 < 128)) hroom

theorem tame_atRoot : ∀ (ops : List FsOp) {dev : Device} {tree : Tree}, Represents dev tree →
    Tight dev tree → Along FsOp.after AtRoot dev ops → Along FsOp.after Tame dev ops := by
  intro ops
  induction ops with
  | nil => exact fun _ _ _ => trivial
  | cons op ops ih =>
    intro dev tree h ht hops
    have hop := ht.tame h hops.1
    obtain ⟨_, _, h', hout⟩ := call_outcome h op
    have htight := hout.tight h' hop ht
    rw [← hout.after] at h' htight
    exact ⟨hop, ih h' htight hops.2⟩

end Runs

/-- **WELL-FORMEDNESS** of the disk after every run from the formatted layout, whatever calls
    return. -/
theorem wellFormed_run (raw : Device) (hd : Healthy raw) (ops : List FsOp)
    (htame : Along FsOp.after Tame (formatted raw) ops) :
    WellFormed (run FsOp.after (formatted raw) ops) := by
  obtain ⟨_, h, ht⟩ := tame_run hd ops htame
  exact h.wellFormed ht

/-- The path `b`. -/
def pathB : CString := ⟨[0x62], by decide⟩

/-- A directory and a file, to which is then appended. -/
def firstCalls : List FsOp :=
  [.mkdir pathB, .write pathA [0x01, 0x02] false, .write pathA [0x03] true]

theorem firstCalls_tame : Along FsOp.after Tame (formatted blankDevice) firstCalls :=
  tame_atRoot firstCalls (formatted_tree blankDevice_healthy) formatted_tight (by decide +kernel)

theorem wellFormed_run_firstCalls : Along FsOp.after Tame (formatted blankDevice) firstCalls
      ∧ WellFormed (run FsOp.after (formatted blankDevice) firstCalls) :=
  ⟨firstCalls_tame,
    wellFormed_run blankDevice blankDevice_healthy firstCalls firstCalls_tame⟩

end Fs
