import SecureOS.FsOutcomeProofs

/-! # What the four calls do to the tree

* `mkdir_outcome`, `write_outcome`, `unlink_outcome`, `rmdir_outcome`, `call_outcome` —
  every call from every tree ends in one of the ways of `Outcome`. -/

namespace Fs

open Function List

open Sof (Byte)
open ByteStore (store)

/-- The entry in the slot a search found. -/
abbrev DirSlot.entry (slot : DirSlot) : DirEntry := entryAt slot.block slot.offset

section Create

variable {slot : DirSlot} {fat : Fat}

section

variable (hp : Place dev chain entries slot fat data chain')
include hp

theorem Place.fat_used (hused : fsFatGetEntry dev.fat c ≠ 0) : fsFatGetEntry fat c ≠ 0 := by
  by_cases hin : c ∈ chain'
  · exact hp.ok.used hin
  · rw [hp.frame c hin]
    exact hused

theorem Place.slot_used : fsFatGetEntry fat slot.cluster ≠ 0 := hp.ok.used hp.cluster

theorem Place.fits : slot.offset + 32 ≤ 512 := by
  obtain ⟨_, _, _⟩ := mem_slotOffsets.mp hp.offset
  omega

end

/-- **A FILLED PLACE**: the slot holds the entry of a node in clusters that were free; all else in
    use is as before. -/
structure Filled (n : Name83) (slot : DirSlot) (fat fat' : Fat) (data data' : Nat → Block)
    (e : DirEntry) (node : Node) : Prop where
  name : e.name = n
  describes : node.Matches e
  empty : ∀ ch es, node = .dir ch es → ch.length ≤ 128 ∧ es = []
  ok : ChainOk fat' node.chain
  holds : node.Holds data'
  fresh : ∀ c ∈ node.chain, fsFatGetEntry fat c = 0
  frame : ∀ c, fsFatGetEntry fat c ≠ 0 → fsFatGetEntry fat' c = fsFatGetEntry fat c
  used : ∀ c, fsFatGetEntry fat' c ≠ 0 → c ∈ node.chain ∨ fsFatGetEntry fat c ≠ 0
  others : ∀ c, fsFatGetEntry fat c ≠ 0 → c ≠ slot.cluster → data' c = data c
  bytes : ∀ i, i < slot.offset ∨ slot.offset + 32 ≤ i → data' slot.cluster i = slot.block i
  slot_eq : slotAt (data' slot.cluster) slot.offset
    = if n.marker = 0xE5 then .deleted else .entry e

section

variable (hf : Filled n slot fat fat' data data' e node)
include hf

theorem Filled.slot_entry :
    slotOn data' (slot.cluster, slot.offset) = .entry x ↔ n.marker ≠ 0xE5 ∧ e = x := by
  rw [slotOn, hf.slot_eq]
  by_cases hmark : n.marker = 0xE5
  · rw [if_pos hmark]
    exact iff_of_false (by simp) (fun h => h.1 hmark)
  · rw [if_neg hmark, Slot.entry.injEq]
    exact ⟨fun h => ⟨hmark, h⟩, fun h => h.2⟩

theorem Filled.slot_marked : (slotOn data' (slot.cluster, slot.offset)).isUnused = false := by
  rw [slotOn, hf.slot_eq]
  by_cases hmark : n.marker = 0xE5
  · rw [if_pos hmark]
    rfl
  · rw [if_neg hmark]
    rfl

section

variable (h : Represents dev tree) (hk : tree k = some (.dir chain entries))
  (hnone : tree (n :: k) = none) (hno : ∀ x ∈ entries, x.name ≠ n)
  (hp : Place dev chain entries slot fat data chain')
include h hk hnone hno hp

omit hk in
/-- What the search sees of a filled place. -/
theorem Filled.edit (child : Option (DirEntry × Node))
    (hchild : ∀ x, child.map Prod.fst = some x ↔ (Room dev.data chain ∧ n.marker ≠ 0xE5 ∧ e = x))
    (hsome : ∀ x nd, child = some (x, nd) → x = e ∧ nd = node) :
    ∃ entries', Edit dev { dev with fat := fat', data := data' } tree k n chain chain' entries
      entries' child := by
  obtain ⟨entries', hdir, hiff⟩ := hp.fill data'
    (fun c hc hne => hf.others c (hp.ok.used hc) hne) hf.bytes hf.slot_marked
    (fun x hx y hy => by
      rw [← (hf.slot_entry.mp hx).2, hf.name]
      exact hno y hy)
  refine ⟨entries', h.healthy.with .., rfl, fun m => ?_, ?_, hp.head, hdir, fun x => ?_, ?_, ?_, ?_,
    hp.fresh, ?_, fun c hc hout _ => ?_⟩
  · refine h.below (fun ch es hdir' => ?_) m
    rw [hnone] at hdir'
    cases hdir'
  · exact hp.ok.frame (fun c hc => hf.frame c (hp.ok.used hc))
  · rw [hiff x, hchild x, hf.slot_entry]
    constructor
    · rintro (hx | hx)
      · exact .inl ⟨hx, hno x hx⟩
      · exact .inr hx
    · rintro (⟨hx, _⟩ | hx)
      · exact .inl hx
      · exact .inr hx
  · intro x nd hc
    obtain ⟨rfl, rfl⟩ := hsome x nd hc
    exact ⟨hf.name, hf.describes⟩
  · intro x nd hc
    obtain ⟨rfl, rfl⟩ := hsome x nd hc
    exact ⟨hf.ok, hf.holds⟩
  · intro x ch es hc
    exact (hf.empty ch es (hsome x _ hc).2.symm).2
  · intro x nd hc c hin
    obtain ⟨rfl, rfl⟩ := hsome x nd hc
    have hfree := hf.fresh c hin
    have hout : c ∉ chain' := fun hc' => hp.ok.used hc' hfree
    refine ⟨hout, .inr ?_⟩
    rw [← hp.frame c hout, hfree]
  · have hout' : c ∉ chain' := fun hin => (hp.fresh c hin).elim hout hc
    have hfat := hp.fat_used hc
    have hslot : c ≠ slot.cluster := by
      rintro rfl
      exact hout' hp.cluster
    exact ⟨(hf.frame c hfat).trans (hp.frame c hout'),
      (hf.others c hfat hslot).trans (hp.used c hc)⟩

/-- **A NEW ENTRY**: where it is seen, it is a place of the tree. -/
theorem Filled.ends (hkey : pathKey path.1 = some (n :: k))
    (hop : (∃ ch content append, op = .write path content append ∧ node = .file ch content)
      ∨ (op = .mkdir path ∧ ∃ c, node = .dir [c] []))
    (run : op.call dev = .ok () { dev with fat := fat', data := data' }) : Ends dev tree op := by
  by_cases hseen : n.marker ≠ 0xE5 ∧ Room dev.data chain
  · -- the search will see the slot, so the entry is a place of the tree
    obtain ⟨entries', he⟩ := hf.edit h hnone hno hp (some (e, node)) (fun x => by
        rw [Option.map_some, Option.some.injEq]
        exact ⟨fun hx => ⟨hseen.2, hseen.1, hx⟩, fun hx => hx.2.2⟩)
      (fun x nd hx => by
        cases hx
        exact ⟨rfl, rfl⟩)
    refine ⟨_, _, h.edit hk he, .created n k chain entries node path hop hkey hk hnone hseen run
      (Changed.edit ..) (fun ht => ?_)⟩
    have hshort := ht.short hk
    refine ht.edit hk (hp.keeps hshort) (hp.short hshort hseen.2) ?_ (fun c hc => ?_)
    · intro x ch es hx
      cases hx
      exact (hf.empty ch es rfl).1
    · rcases hf.used c hc with hin | hold
      · exact .inr (.inl ⟨e, node, rfl, hin⟩)
      · by_cases hin : c ∈ chain'
        · exact .inl hin
        · rw [hp.frame c hin] at hold
          refine .inr (.inr ⟨hold, ?_⟩)
          rw [chainAt, hnone]
          exact not_mem_nil
  · -- the slot is taken, but no path leads to it
    have hunseen : n.marker = 0xE5 ∨ ¬ Room dev.data chain := by
      by_cases hmark : n.marker = 0xE5
      · exact .inl hmark
      · exact .inr (fun hroom => hseen ⟨hmark, hroom⟩)
    obtain ⟨entries', he⟩ := hf.edit h hnone hno hp none
      (fun x => iff_of_false (by simp) (fun hx => hseen ⟨hx.2.1, hx.1⟩))
      (fun x nd hx => by cases hx)
    refine ⟨_, _, h.edit hk he, .hidden n k chain entries path ?_ hkey hk hnone hunseen run
      (Changed.edit ..) (fun hmark hlen => ?_)⟩
    · rcases hop with ⟨_, content, append, rfl, _⟩ | ⟨rfl, _⟩
      · exact .inl ⟨content, append, rfl⟩
      · exact .inr rfl
    · refine ⟨chain', entries', edit_parent .., ?_⟩
      exact hp.beyond data' (fun c hc hne => hf.others c (hp.ok.used hc) hne) e
        (hf.slot_entry.mpr ⟨hmark, rfl⟩) hlen (hunseen.resolve_left hmark)

end

end

end Create

section Calls

variable {dev : Device} {tree : Tree}
variable {n : Name83}

/-- The bytes of a new entry, outside its slot. -/
theorem newEntry_outside (h : i < off ∨ off + 32 ≤ i) :
    fsWriteU32 (setEntry b off n attr cluster) (off + 28) size i = b i := by
  rcases h with h | h
  · rw [fsWriteU32_before (by omega), setEntry_outside (.inl h)]
  · rw [fsWriteU32_behind (by omega), setEntry_outside (.inr (by omega))]

theorem Filled.mkdir (h0 : n.marker ≠ 0x00) (hslot : fsFatGetEntry fat slot.cluster ≠ 0)
    (halloc : Allocatable new) (hfree : fsFatGetEntry fat new = 0) :
    Filled n slot fat (fsFatSetEntry fat new fatEntryEoc) data
      (update (update data slot.cluster
        (fsWriteU32 (setEntry slot.block slot.offset n 0x10 new) (slot.offset + 28) 0)) new
        zeroBlock) ⟨n, 0x10, new, 0⟩ (.dir [new] []) := by
  have hne : slot.cluster ≠ new := by
    rintro rfl
    exact hslot hfree
  have hmax := halloc.2
  have hisdir : (⟨n, 0x10, new, 0⟩ : DirEntry).isDir := by simp [DirEntry.isDir]
  have hblock : ∀ b, update (update data slot.cluster b) new zeroBlock slot.cluster = b := by
    intro _
    rw [update_of_ne hne, update_self]
  refine ⟨rfl, ⟨hisdir, rfl, rfl⟩, fun ch es hdir => ?_, ChainOk.single halloc.data,
    DirOk.cleared (update_self ..),
    fun c hc => ?_, fun c hc => ?_, fun c hc => ?_, fun c hc hcs => ?_, fun i hi => ?_, ?_⟩
  · cases hdir
    exact ⟨by rw [length_singleton]; omega, rfl⟩
  · rw [mem_singleton.mp hc]
    exact hfree
  · refine get_set_of_ne ?_
    rintro rfl
    exact hc hfree
  · by_cases hnew : c = new
    · exact .inl (mem_singleton.mpr hnew)
    · rw [get_set_of_ne hnew] at hc
      exact .inr hc
  · have hnew : c ≠ new := by
      rintro rfl
      exact hc hfree
    rw [update_of_ne hnew, update_of_ne hcs]
  · rw [hblock]
    exact newEntry_outside hi
  · rw [hblock]
    exact slotAt_new (by omega) (by decide) h0 (by decide)

section Mkdir

section

variable (hplace : fsFindOrExtend fat₀ c n dev = .ok (slot, fat) dev')
include hplace

theorem fsMkdirAt_taken (hfound : slot.found) : ∃ e, fsMkdirAt fat₀ c n dev = .error e dev' := by
  have hrun : fsMkdirAt fat₀ c n dev = (if slot.entry.isDir then throw .alreadyExists
      else throw .notDir : FsM Unit) dev' := by
    refine (bind_ok hplace).trans ?_
    exact congrFun (if_pos hfound) dev'
  rw [hrun]
  split <;> exact ⟨_, rfl⟩

theorem fsMkdirAt_full (hfound : slot.found = false) (hfree : fsFindFreeCluster fat = none) :
    fsMkdirAt fat₀ c n dev = .error .noSpace dev' := by
  refine (bind_ok hplace).trans ?_
  refine (congrFun (if_neg (by rw [hfound]; decide)) dev').trans ?_
  rw [hfree]
  rfl

theorem fsMkdirAt_new (hd : Healthy dev') (hslot : DataCluster slot.cluster)
    (hfound : slot.found = false) (hfree : fsFindFreeCluster fat = some new) :
    fsMkdirAt fat₀ c n dev = .ok () { dev' with
      fat := fsFatSetEntry fat new fatEntryEoc
      data := update (update dev'.data slot.cluster
        (fsWriteU32 (setEntry slot.block slot.offset n 0x10 new) (slot.offset + 28) 0)) new
        zeroBlock } := by
  have hnew := (fsFindFreeCluster_eq_some hfree).1.data
  refine (bind_ok hplace).trans ?_
  refine (congrFun (if_neg (by rw [hfound]; decide)) dev').trans ?_
  rw [hfree]
  refine (bind_ok (orFail_ok (fsStoreFat_ok hd _))).trans ?_
  refine (bind_ok (orFail_ok (fsWriteCluster_ok (hd.with ..) hslot))).trans ?_
  exact orFail_ok (fsWriteCluster_ok (hd.with ..) hnew)

end

/-- **MKDIR.** -/
theorem mkdir_outcome (h : Represents dev tree) (path : CString) : Ends dev tree (.mkdir path) := by
  rcases openParent_tree h path with ⟨n, _, c, _, _, hkey, hk, hopen⟩ | ⟨⟨_, hopen⟩, _⟩
  · have hcall : (FsOp.mkdir path).call dev = fsMkdirAt dev.fat c n dev := (bind_ok hopen).trans rfl
    rcases find_tree h hk n with
      ⟨_, _, _, _, _, _, _, hp, _, hfind⟩ | ⟨hnone, hno⟩
    · obtain ⟨_, hrun⟩ := fsMkdirAt_taken (findOrExtend_found dev.fat hfind) rfl
      exact Ends.unchanged h (hcall.trans hrun)
    · rcases findOrExtend_absent h.healthy (h.chain hk) (h.dir hk) hno with
        ⟨_, fat, _, _, hplace, hp⟩ | hplace
      · cases hfree : fsFindFreeCluster fat with
        | none =>
          -- a cluster that extended the parent is in the table in memory only
          exact Ends.sameTable h (hcall.trans (fsMkdirAt_full hplace hp.absent hfree)) hp.used
        | some new =>
          obtain ⟨halloc, hzero⟩ := fsFindFreeCluster_eq_some hfree
          have hrun := fsMkdirAt_new hplace (h.healthy.with ..) (hp.ok.data _ hp.cluster)
            hp.absent hfree
          exact (Filled.mkdir (marker_ne_zero hkey) hp.slot_used halloc hzero).ends h hk hnone
            hno hp hkey (.inr ⟨rfl, new, rfl⟩) (hcall.trans hrun)
      · exact Ends.unchanged h (hcall.trans (bind_error hplace))
  · exact Ends.unchanged h (bind_error hopen)

end Mkdir

section Write

section

variable (hplace : fsFindOrExtend fat₀ c n dev = .ok (slot, fat) dev₁)
include hplace

theorem fsWriteFileAt_refused (hopen : openForWrite slot n fat = .error e) :
    fsWriteFileAt fat₀ c n content append dev = .error e dev₁ := by
  refine (bind_ok hplace).trans ?_
  exact bind_error (query_error hopen)

section

variable (hopen : openForWrite slot n fat = .ok (block, first, size, fat₁))
include hopen

theorem fsWriteFileAt_full
    (hwrite : fsWriteEntryContent first content append size fat₁ dev₁ = .error e dev₂) :
    fsWriteFileAt fat₀ c n content append dev = .error e dev₂ := by
  refine (bind_ok hplace).trans ?_
  refine (bind_ok (query_ok hopen)).trans ?_
  exact bind_error hwrite

theorem fsWriteFileAt_ok
    (hwrite : fsWriteEntryContent first content append size fat₁ dev₁ = .ok (size', fat₂) dev₂)
    (hd : Healthy dev₂) (hslot : DataCluster slot.cluster) :
    fsWriteFileAt fat₀ c n content append dev = .ok () { dev₂ with
      fat := fat₂
      data := update dev₂.data slot.cluster (fsWriteU32 block (slot.offset + 28) size') } := by
  refine (bind_ok hplace).trans ?_
  refine (bind_ok (query_ok hopen)).trans ?_
  refine (bind_ok hwrite).trans ?_
  refine (bind_ok (orFail_ok (fsStoreFat_ok hd _))).trans ?_
  exact orFail_ok (fsWriteCluster_ok (hd.with ..) hslot)

end

end

theorem openForWrite_file (hfound : slot.found) (hfile : slot.entry.isDir = false)
    (halloc : Allocatable slot.entry.cluster) : openForWrite slot n fat
      = .ok (slot.block, slot.entry.cluster, slot.entry.size, fat) := by
  rw [openForWrite, if_neg (by rw [hfound]; decide), if_neg (by rw [hfile]; decide),
    if_neg halloc.inRange]

/-- What the write of a new file leaves in a place. -/
theorem Filled.write (h0 : n.marker ≠ 0x00) (hslot : fsFatGetEntry fat slot.cluster ≠ 0)
    (halloc : Allocatable first) (hfree : fsFatGetEntry fat first = 0)
    (hrw : Rewritten (fsFatSetEntry fat first fatEntryEoc) fat' data data₁ [first] chainF content) :
    Filled n slot fat fat' data
      (update data₁ slot.cluster (fsWriteU32 (setEntry slot.block slot.offset n 0x20 first)
        (slot.offset + 28) content.length))
      ⟨n, 0x20, first, content.length⟩ (.file chainF content) := by
  have hmax := halloc.2
  have hlen := length_le_of_take_chainBytes hrw.bytes
  have hcount := hrw.ok.length_le
  have hisfile : (⟨n, 0x20, first, content.length⟩ : DirEntry).isDir = false := by
    simp [DirEntry.isDir]
  have hne : ∀ c, fsFatGetEntry fat c ≠ 0 → c ∉ [first] := by
    intro c hc hin
    rw [mem_singleton.mp hin] at hc
    exact hc hfree
  have hsame : ∀ c, c ∉ [first] →
      fsFatGetEntry (fsFatSetEntry fat first fatEntryEoc) c = fsFatGetEntry fat c :=
    fun c hc => get_set_of_ne (fun heq => hc (mem_singleton.mpr heq))
  -- the table on the disk has none of the clusters of the file in use
  have hfresh : ∀ c ∈ chainF, fsFatGetEntry fat c = 0 := by
    intro c hc
    by_cases hin : c ∈ [first]
    · rw [mem_singleton.mp hin, hfree]
    · rcases hrw.fresh c hc with hin' | ⟨_, hzero⟩
      · exact absurd hin' hin
      · rwa [hsame c hin] at hzero
  have hout : ∀ c ∈ chainF, c ≠ slot.cluster := by
    rintro c hc rfl
    exact hslot (hfresh _ hc)
  refine ⟨rfl, ⟨hisfile, hrw.head, rfl⟩, (fun ch es hdir => by cases hdir), hrw.ok, ?_, hfresh,
    fun c hc => ?_, fun c hc => ?_, fun c hc hcs => ?_, fun i hi => ?_, ?_⟩
  · show (chainBytes _ chainF).take content.length = content
    rw [chainBytes_congr (fun c hc => update_of_ne (hout c hc) ..)]
    exact hrw.bytes
  · rw [hrw.frame c (hne c hc) (fun hin => hc (hfresh c hin)), hsame c (hne c hc)]
  · by_cases hin : c ∈ chainF
    · exact .inl hin
    · by_cases hfirst : c ∈ [first]
      · exact absurd (hrw.freed c hfirst hin) hc
      · rw [hrw.frame c hfirst hin, hsame c hfirst] at hc
        exact .inr hc
  · rw [update_of_ne hcs, hrw.others c (hne c hc) (by rw [hsame c (hne c hc)]; exact hc)]
  · rw [update_self]
    exact newEntry_outside hi
  · rw [update_self]
    exact slotAt_new (by omega) (by omega) h0 (by decide)

end Write

section Existing

/-- A file gets other clusters and bytes. -/
theorem Edit.file (h : Represents dev tree) (hk : tree k = some (.dir chain entries))
    (hnode : tree (n :: k) = some (.file ch old)) (hdir : DirOk data' chain entries')
    (hiff : ∀ x, x ∈ entries' ↔ (x ∈ entries ∧ x.name ≠ n) ∨ e' = x) (hname : e'.name = n)
    (hmatch : (Node.file ch' new).Matches e') (hok : ChainOk fat' ch')
    (hbytes : (chainBytes data' ch').take new.length = new)
    (hfresh : ∀ c ∈ ch', c ∈ ch ∨ fsFatGetEntry dev.fat c = 0)
    (hfat : ∀ c, c ∉ ch → fsFatGetEntry dev.fat c ≠ 0 →
      fsFatGetEntry fat' c = fsFatGetEntry dev.fat c)
    (hdata : ∀ c, c ∉ ch → c ∉ chain → fsFatGetEntry dev.fat c ≠ 0 → data' c = dev.data c) :
    Edit dev { dev with fat := fat', data := data' } tree k n chain chain entries entries'
      (some (e', .file ch' new)) := by
  have hchild : chainAt tree (n :: k) = ch := by
    rw [chainAt, hnode]
    rfl
  have hapart : ∀ c ∈ chain, c ∉ ch := h.apart hk hnode
  refine ⟨h.healthy.with .., rfl, ?_, ?_, rfl, hdir, fun x => ?_, ?_, ?_, ?_,
    fun c hc => .inl hc, ?_, fun c hc hout hout' => ?_⟩
  · refine h.below (fun ch es hdir' => ?_)
    rw [hnode] at hdir'
    cases hdir'
  · exact (h.chain hk).frame (fun c hc => hfat c (hapart c hc) (h.used hk hc))
  · rw [hiff x, Option.map_some, Option.some.injEq]
  · rintro _ _ ⟨⟩
    exact ⟨hname, hmatch⟩
  · rintro _ _ ⟨⟩
    exact ⟨hok, hbytes⟩
  · rintro _ _ _ ⟨⟩
  · rintro _ _ ⟨⟩ c hc
    rw [hchild]
    refine ⟨fun hin => ?_, hfresh c hc⟩
    rcases hfresh c hc with hold | hzero
    · exact hapart c hin hold
    · exact h.used hk hin hzero
  · rw [hchild] at hout'
    exact ⟨hfat c hout' hc, hdata c hout' hout hc⟩

/-- The entries of a directory, without and with one of them. -/
theorem DirOk.mem_iff (h : DirOk data chain entries) (he : e ∈ entries)
    (x : DirEntry) : x ∈ entries ↔ (x ∈ entries ∧ x.name ≠ e.name) ∨ e = x := by
  constructor
  · intro hx
    by_cases hname : x.name = e.name
    · exact .inr (inj_on_of_nodup_map h.names he hx hname.symm)
    · exact .inl ⟨hx, hname⟩
  · rintro (⟨hx, _⟩ | rfl)
    · exact hx
    · exact he

theorem slotAt_resize (h : slotAt b off = .entry e) (hsize : size < 2 ^ 32) :
    slotAt (fsWriteU32 b (off + 28) size) off = .entry { e with size := size } := by
  obtain ⟨h0, hE5, hattr⟩ := slotAt_entry_bytes h
  have hmark : fsWriteU32 b (off + 28) size off = b off := fsWriteU32_before (by omega)
  rw [slotAt_of_entry (by rw [hmark]; exact h0) (by rw [hmark]; exact hE5)
    (by rw [fsWriteU32_size_before (by omega)]; exact hattr), entryAt_resize b off hsize,
    slotAt_entry h]

section

variable (h : Represents dev tree) (hk : tree k = some (.dir chain entries))
  (hnode : tree (n :: k) = some (.file ch old))
include h hk hnode

/-- **A WRITE TO A FILE THAT WAS THERE**: the slot gets the new size. -/
theorem Edit.rewrite (hname : e.name = n)
    (hmatch : (Node.file ch old).Matches e) (hp : p ∈ visibleSlots chain)
    (hslot : slotOn dev.data p = .entry e)
    (hrw : Rewritten dev.fat fat' dev.data data' ch ch' new) : ∃ entries', Edit dev { dev with
        fat := fat'
        data := update data' p.1 (fsWriteU32 (dev.data p.1) (p.2 + 28) new.length) }
      tree k n chain chain entries entries'
      (some ({ e with size := new.length }, .file ch' new)) := by
  have hpc : p.1 ∈ chain := mem_chain_of_visible hp
  have hlen := length_le_of_take_chainBytes hrw.bytes
  have hcount := hrw.ok.length_le
  have hapart : ∀ c ∈ chain, c ∉ ch := h.apart hk hnode
  -- the size goes into a cluster of the directory, which the content does not reach
  have hapart' : ∀ c ∈ ch', c ≠ p.1 := by
    rintro c hin rfl
    rcases hrw.fresh _ hin with hold | ⟨_, hzero⟩
    · exact hapart _ hpc hold
    · exact h.used hk hpc hzero
  have hnew : slotOn (update data' p.1 (fsWriteU32 (dev.data p.1) (p.2 + 28) new.length)) p
      = .entry { e with size := new.length } := by
    rw [slotOn, update_self]
    exact slotAt_resize hslot (by omega)
  obtain ⟨entries', hdir, hiff⟩ := (h.dir hk).rewrite (h.chain hk).nodup
    (update data' p.1 (fsWriteU32 (dev.data p.1) (p.2 + 28) new.length)) hp hslot
    (fun c hc hne => by rw [update_of_ne hne, hrw.others c (hapart c hc) (h.used hk hc)])
    (fun i hi => by
      rw [update_self]
      rcases hi with _ | _
      · exact fsWriteU32_before (by omega)
      · exact fsWriteU32_behind (by omega))
    (by rw [hnew]; rfl)
    (fun x hx => by
      rw [hnew] at hx
      cases hx
      rfl)
  refine ⟨entries', Edit.file h hk hnode hdir (fun x => ?_) hname ?_ hrw.ok ?_ (fun c hc => ?_)
    (fun c hc hused => ?_) (fun c hc hout hused => ?_)⟩
  · rw [hiff x, hnew, Slot.entry.injEq, hname]
  · exact ⟨hmatch.1, hrw.head.trans hmatch.2.1, rfl⟩
  · rw [chainBytes_congr (fun c hc => update_of_ne (hapart' c hc) ..)]
    exact hrw.bytes
  · rcases hrw.fresh c hc with hold | ⟨_, hzero⟩
    · exact .inl hold
    · exact .inr hzero
  · refine hrw.frame c hc (fun hin => ?_)
    rcases hrw.fresh c hin with hold | ⟨_, hzero⟩
    · exact hc hold
    · exact hused hzero
  · have hne : c ≠ p.1 := by
      rintro rfl
      exact hout hpc
    rw [update_of_ne hne, hrw.others c hc hused]

/-- **A WRITE THAT RAN OUT OF CLUSTERS**: the entry stays, on other bytes. -/
theorem Edit.full (he : e ∈ entries) (hname : e.name = n) (hmatch : (Node.file ch old).Matches e)
    (hothers : ∀ c, c ∉ ch → fsFatGetEntry dev.fat c ≠ 0 → data' c = dev.data c)
    (hbytes : (chainBytes data' ch).take old.length = new) :
    Edit dev { dev with data := data' } tree k n chain chain entries entries
      (some (e, .file ch new)) := by
  have hold : (chainBytes dev.data ch).take old.length = old := h.holds hnode
  have hlen : new.length = old.length := by
    rw [← hbytes, length_take, chainBytes_length]
    have hle := length_le_of_take_chainBytes hold
    omega
  have hapart : ∀ c ∈ chain, c ∉ ch := h.apart hk hnode
  refine Edit.file h hk hnode ((h.dir hk).frame rfl (fun c hc => ?_)) (fun x => ?_) hname ?_
    (h.chain hnode) ?_ (fun c hc => .inl hc) (fun _ _ _ => rfl) (fun c hc _ hused => ?_)
  · have hin := mem_of_mem_take hc
    exact hothers c (hapart c hin) (h.used hk hin)
  · rw [← hname]
    exact (h.dir hk).mem_iff he x
  · exact ⟨hmatch.1, hmatch.2.1, hmatch.2.2.trans hlen.symm⟩
  · rw [hlen, hbytes]
  · exact hothers c hc hused

end

/-- What an overwrite that does not fit leaves at the start of the file. -/
theorem lost_head (hfirst : data' first = streamBlock data first 0 content)
    (hlong : 512 ≤ content.length) (m : Nat) :
    ((chainBytes data' (first :: rest)).take m).take 512 = content.take (min 512 m) := by
  have hblock := load_streamBlock data first 0 content
  have hchunk : (content.take (512 - 0)).length = 512 := by
    rw [length_take]
    omega
  rw [hchunk] at hblock
  have htake := ByteStore.take_load (streamBlock data first 0 content) 0 512 (min 512 m)
  rw [hblock, Nat.min_eq_left (Nat.min_le_left 512 m)] at htake
  rw [take_take, take_chainBytes_cons (Nat.min_le_left ..), hfirst, ← htake]
  show (content.take 512).take _ = _
  rw [take_take, Nat.min_eq_left (Nat.min_le_left 512 m)]

end Existing

section WriteCall

/-- A write to a file that was there ends with the new content, or runs out of clusters. -/
theorem write_file (h : Represents dev tree) (hkey : pathKey path.1 = some (n :: k))
    (hnode : tree (n :: k) = some (.file ch old)) (content : List Byte) (append : Bool) :
    (∃ dev' tree' ch', Represents dev' tree'
      ∧ (FsOp.write path content append).call dev = .ok () dev'
      ∧ Changed tree tree' k n (some (.file ch' (written old content append)))
      ∧ (∀ c ∈ ch', c ∈ ch ∨ c ∈ freeClusters dev.fat) ∧ (Tight dev tree → Tight dev' tree')) ∨
    ∃ data', (FsOp.write path content append).call dev = .error .noSpace { dev with data := data' }
      ∧ WriteFull dev.fat dev.data data' ch old content append := by
  rcases openParent_tree h path with ⟨_, _, c, l, _, hkey', hk, hopen⟩ | ⟨_, hnone⟩
  · rw [hkey] at hkey'
    cases hkey'
    have hcall : (FsOp.write path content append).call dev
        = fsWriteFileAt dev.fat c n content append dev := (bind_ok hopen).trans rfl
    rcases find_tree h hk n with
      ⟨_, e, p, hnode', _, hname, hmatch, hp, hslot, hfind⟩ | ⟨hnone, _⟩
    · rw [hnode] at hnode'
      cases hnode'
      have hplace := findOrExtend_found dev.fat hfind
      have hpc : p.1 ∈ c :: l := mem_chain_of_visible hp
      obtain rfl : entryAt (dev.data p.1) p.2 = e := slotAt_entry hslot
      obtain ⟨rest, rfl⟩ := List.head?_eq_some_iff.mp hmatch.2.1
      have halloc := h.allocatable hnode (mem_cons_self ..)
      have hopened : openForWrite ⟨p.1, p.2, true, dev.data p.1⟩ n dev.fat = _ :=
        openForWrite_file rfl hmatch.1 halloc
      rw [hmatch.2.2] at hopened
      rcases fsWriteEntryContent_spec h.healthy (h.chain hnode) halloc (h.holds hnode) content
          append with
        ⟨fat', data', ch', hwrite, hrw⟩ | ⟨_, data', hwrite, hfull⟩
      · obtain ⟨_, hedit⟩ := Edit.rewrite h hk hnode hname hmatch hp hslot hrw
        refine .inl ⟨_, _, ch', h.edit hk hedit, hcall.trans (fsWriteFileAt_ok hplace hopened
          hwrite (h.healthy.with ..) ((h.chain hk).data _ hpc)), Changed.edit ..,
          fun d hd => (hrw.fresh d hd).imp_right fun hfree => ?_, fun ht => ?_⟩
        · exact mem_freeClusters.mpr hfree
        -- a cluster in use is the file's, or was in use and not the file's
        refine ht.edit hk (fun _ hc => hc) (ht.short hk) (by rintro _ _ _ ⟨⟩) (fun d hd => ?_)
        by_cases hin : d ∈ ch'
        · exact .inr (.inl ⟨_, _, rfl, hin⟩)
        · refine .inr (.inr ?_)
          rw [chainAt, hnode]
          by_cases hold : d ∈ (entryAt (dev.data p.1) p.2).cluster :: rest
          · exact absurd (hrw.freed d hold hin) hd
          · rw [← hrw.frame d hold hin]
            exact ⟨hd, hold⟩
      · exact .inr ⟨data', hcall.trans (fsWriteFileAt_full hplace hopened hwrite), hfull⟩
    · rw [hnode] at hnone
      cases hnone
  · rw [hnone n k hkey] at hnode
    cases hnode

/-- The tree a write that ran out of clusters leaves: the file may have other bytes. -/
theorem write_full (h : Represents dev tree) (hnode : tree (n :: k) = some (.file ch old))
    (hfull : WriteFull dev.fat dev.data data' ch old content append) :
    ∃ tree', Represents { dev with data := data' } tree'
      ∧ Changed tree tree' k n (some (.file ch ((chainBytes data' ch).take old.length)))
      ∧ ((chainBytes data' ch).take old.length = old → tree' = tree)
      ∧ (Tight dev tree → Tight { dev with data := data' } tree') := by
  obtain ⟨_, _, hk, _, he, hname, hmatch⟩ := h.parent hnode
  have hedit := Edit.full h hk hnode he hname hmatch hfull.others rfl
  refine ⟨_, h.edit hk hedit, Changed.edit .., fun hsame => ?_, fun ht => ?_⟩
  · rw [hsame]
    rw [Tree.edit, ← hk, update_eq_self, Option.map_some, ← hnode, update_eq_self]
  · refine ht.edit hk (fun _ hc => hc) (ht.short hk) (by rintro _ _ _ ⟨⟩) (fun d hd => ?_)
    by_cases hin : d ∈ ch
    · exact .inr (.inl ⟨_, _, rfl, hin⟩)
    · refine .inr (.inr ⟨hd, ?_⟩)
      rw [chainAt, hnode]
      exact hin

/-- The start of what an overwrite that does not fit leaves. -/
theorem WriteFull.lost (hchain : ch ≠ [])
    (hfull : WriteFull fat data data' ch old content false) (m : Nat) :
    ((chainBytes data' ch).take m).take 512 = content.take (min 512 m) := by
  cases ch with
  | nil => exact absurd rfl hchain
  | cons first =>
    have hlong := hfull.long rfl
    rw [length_cons] at hlong
    exact lost_head (hfull.first rfl first rfl) (by omega) m

theorem write_new (h : Represents dev tree)
    (hkey : pathKey path.1 = some (n :: k)) (hk : tree k = some (.dir (c :: l) entries))
    (hnone : tree (n :: k) = none) (hno : ∀ e ∈ entries, e.name ≠ n)
    (hcall : (FsOp.write path content append).call dev
      = fsWriteFileAt dev.fat c n content append dev) :
    Ends dev tree (.write path content append) := by
  rcases findOrExtend_absent h.healthy (h.chain hk) (h.dir hk) hno with
    ⟨slot, fat, data, _, hplace, hp⟩ | hplace
  · have hfits := hp.fits
    cases hfree : fsFindFreeCluster fat with
    | none =>
      have hrefuse : openForWrite slot n fat = .error .noSpace := by
        rw [openForWrite, if_pos (by rw [hp.absent]; rfl), if_neg (by omega), hfree]
      exact Ends.sameTable h (hcall.trans (fsWriteFileAt_refused hplace hrefuse)) hp.used
    | some first =>
      obtain ⟨halloc, hzero⟩ := fsFindFreeCluster_eq_some hfree
      have hopened : openForWrite slot n fat
          = .ok (setEntry slot.block slot.offset n 0x20 first, first, 0,
            fsFatSetEntry fat first fatEntryEoc) := by
        rw [openForWrite, if_pos (by rw [hp.absent]; rfl), if_neg (by omega), hfree]
      have hd : Healthy { dev with data := data } := h.healthy.with ..
      have hchain : ChainOk (fsFatSetEntry fat first fatEntryEoc) [first] :=
        ChainOk.single halloc.data
      have hempty : (chainBytes data [first]).take ([] : List Byte).length = [] := rfl
      have hwritten : written [] content append = content := by cases append <;> rfl
      rcases fsWriteEntryContent_spec hd hchain halloc hempty content append with
        ⟨_, _, ch', hwrite, hrw⟩ | ⟨_, _, hwrite, hfull⟩
      · rw [hwritten] at hwrite hrw
        have hrun := fsWriteFileAt_ok hplace hopened hwrite (h.healthy.with ..)
          (hp.ok.data _ hp.cluster)
        exact (Filled.write (marker_ne_zero hkey) hp.slot_used halloc hzero hrw).ends h hk
          hnone hno hp hkey (.inl ⟨ch', content, append, rfl, rfl⟩) (hcall.trans hrun)
      · -- the clusters written so far are free on the disk
        refine Ends.sameTable h (hcall.trans (fsWriteFileAt_full hplace hopened hwrite))
          (fun d hd => ?_)
        have hfat := hp.fat_used hd
        have hne : d ≠ first := by
          rintro rfl
          exact hfat hzero
        rw [hfull.others d (fun hin => hne (mem_singleton.mp hin))
          (by rw [get_set_of_ne hne]; exact hfat)]
        exact hp.used d hd
  · exact Ends.unchanged h (hcall.trans (bind_error hplace))

/-- **WRITE.** -/
theorem write_outcome (h : Represents dev tree) (path : CString) (content : List Byte)
    (append : Bool) : Ends dev tree (.write path content append) := by
  rcases openParent_tree h path with ⟨n, k, c, _, _, hkey, hk, hopen⟩ | ⟨⟨_, hopen⟩, _⟩
  · have hcall : (FsOp.write path content append).call dev
        = fsWriteFileAt dev.fat c n content append dev := (bind_ok hopen).trans rfl
    rcases find_tree h hk n with
      ⟨node, e, p, hnode, _, _, hmatch, _, hslot, hfind⟩ | ⟨hnone, hno⟩
    · cases node with
      | dir =>
        have hplace := findOrExtend_found dev.fat hfind
        obtain rfl : entryAt (dev.data p.1) p.2 = e := slotAt_entry hslot
        have hrefuse : openForWrite ⟨p.1, p.2, true, dev.data p.1⟩ n dev.fat = .error .notDir :=
          if_pos hmatch.1
        exact Ends.unchanged h (hcall.trans (fsWriteFileAt_refused hplace hrefuse))
      | file ch old =>
        rcases write_file h hkey hnode content append with
          ⟨dev', tree', ch', hrep, hrun, hchanged, -, htight⟩ | ⟨_, hrun, hfull⟩
        · exact ⟨dev', tree', hrep, .rewritten n k ch ch' old content append path rfl hkey hnode
            hrun hchanged htight⟩
        · obtain ⟨tree', hrep, hchanged, hsame, htight⟩ := write_full h hnode hfull
          -- an append only wrote behind the old content
          cases append with
          | true => exact ⟨_, tree', hrep, .refused _ hrun (hsame (hfull.kept rfl)) htight⟩
          | false =>
            exact ⟨_, tree', hrep, .clobbered n k ch old _ path content rfl hkey hnode
              (hfull.long rfl) hrun hchanged
              (hfull.lost (h.chain hnode).linked.ne_nil _) htight hsame⟩
    · exact write_new h hkey hk hnone hno hcall
  · exact Ends.unchanged h (bind_error hopen)

end WriteCall

section Remove

variable {n : Name83}

theorem removeEntry_ok (hd : Healthy dev) (hslot : DataCluster slot.cluster)
    (hchain : ChainOk fat (slot.entry.cluster :: l)) (halloc : Allocatable slot.entry.cluster) :
    removeEntry slot fat dev = .ok () { dev with
      fat := freeAll fat (slot.entry.cluster :: l)
      data := update dev.data slot.cluster (store slot.block slot.offset [0xE5]) } := by
  rw [removeEntry, fsFreeClusterChain_chain hchain halloc]
  refine (bind_ok (orFail_ok (fsStoreFat_ok hd _))).trans ?_
  exact orFail_ok (fsWriteCluster_ok (hd.with ..) hslot)

section

variable (h : Represents dev tree) (hk : tree k = some (.dir chain entries))
include h hk

/-- **A REMOVED ENTRY**: its clusters are free and its slot is marked. -/
theorem Edit.remove (hnode : tree (n :: k) = some node)
    (hempty : ∀ ch es, node = .dir ch es → es = []) (hname : e.name = n)
    (hp : p ∈ visibleSlots chain) (hslot : slotOn dev.data p = .entry e) :
    ∃ entries', Edit dev { dev with
        fat := freeAll dev.fat node.chain
        data := update dev.data p.1 (store (dev.data p.1) p.2 [0xE5]) }
      tree k n chain chain entries entries' none := by
  have hpc : p.1 ∈ chain := mem_chain_of_visible hp
  have hchild : chainAt tree (n :: k) = node.chain := by
    rw [chainAt, hnode]
    rfl
  have hapart := h.apart hk hnode
  -- one byte of the slot changes
  have hmark : slotOn (update dev.data p.1 (store (dev.data p.1) p.2 [0xE5])) p
      = .deleted := by
    rw [slotOn, update_self]
    exact slotAt_deleted ..
  obtain ⟨entries', hdir, hiff⟩ := (h.dir hk).rewrite (h.chain hk).nodup
    (update dev.data p.1 (store (dev.data p.1) p.2 [0xE5])) hp hslot
    (fun c _ hne => update_of_ne hne ..)
    (fun i hi => by
      rw [update_self]
      rcases hi with hi | hi
      · exact ByteStore.store_of_lt hi
      · exact ByteStore.store_of_ge (by rw [length_singleton]; omega))
    (by rw [hmark]; rfl)
    (fun x hx => by
      rw [hmark] at hx
      cases hx)
  refine ⟨entries', h.healthy.with .., rfl, ?_, ?_, rfl, hdir, fun x => ?_, ?_, ?_, ?_,
    fun c hc => .inl hc, ?_, fun c hc hout hout' => ?_⟩
  · refine h.below (fun ch es hdir' => ?_)
    rw [hnode] at hdir'
    exact hempty ch es (Option.some.inj hdir')
  · exact (h.chain hk).frame (fun c hc => get_freeAll_of_notMem _ _ (hapart c hc))
  · rw [hiff x, hmark, hname]
    exact or_congr_right (iff_of_false (by simp) (by simp))
  · rintro _ _ ⟨⟩
  · rintro _ _ ⟨⟩
  · rintro _ _ _ ⟨⟩
  · rintro _ _ ⟨⟩
  · rw [hchild] at hout'
    have hne : c ≠ p.1 := by
      rintro rfl
      exact hout hpc
    exact ⟨get_freeAll_of_notMem _ _ hout', update_of_ne hne ..⟩

theorem Ends.remove (hkey : pathKey path.1 = some (n :: k))
    (hnode : tree (n :: k) = some node)
    (hop : (op = .unlink path ∧ ∃ ch content, node = .file ch content)
      ∨ (op = .rmdir path ∧ ∃ ch, node = .dir ch []))
    (hname : e.name = n) (hp : p ∈ visibleSlots chain) (hslot : slotOn dev.data p = .entry e)
    (run : op.call dev = .ok () { dev with
      fat := freeAll dev.fat node.chain
      data := update dev.data p.1 (store (dev.data p.1) p.2 [0xE5]) }) :
    Ends dev tree op := by
  have hempty : ∀ ch es, node = .dir ch es → es = [] := by
    rintro _ _ rfl
    rcases hop with ⟨_, _, _, hfile⟩ | ⟨_, _, hdir⟩
    · cases hfile
    · cases hdir
      rfl
  obtain ⟨_, hedit⟩ := Edit.remove h hk hnode hempty hname hp hslot
  refine ⟨_, _, h.edit hk hedit, .removed n k node path hop hkey hnode run (Changed.edit ..)
    (fun ht => ?_)⟩
  refine ht.edit hk (fun _ hc => hc) (ht.short hk) (by rintro _ _ _ ⟨⟩) (fun d hd => ?_)
  refine .inr (.inr ?_)
  rw [chainAt, hnode]
  by_cases hin : d ∈ node.chain
  · exact absurd (get_freeAll_of_mem ((h.chain hnode).data d hin).2 _ _ hin) hd
  · rw [← get_freeAll_of_notMem node.chain dev.fat hin]
    exact ⟨hd, hin⟩

end

theorem fsFindExisting_found (hfind : fsFindEntryInDirExt dev c n = .ok slot)
    (hfound : slot.found) : fsFindExisting c n dev = .ok slot := by
  rw [fsFindExisting, hfind]
  exact if_neg (by rw [hfound]; decide)

theorem fsFindExisting_absent (h : Represents dev tree) (hk : tree k = some (.dir (c :: l) entries))
    (hno : ∀ x ∈ entries, x.name ≠ n) : fsFindExisting c n dev = .error .notFound := by
  rw [fsFindExisting]
  rcases find_absent h.healthy (h.chain hk) (h.dir hk) hno with
    ⟨_, _, _, _, _, _, hfind⟩ | ⟨_, hfind⟩
  · rw [hfind]
    rfl
  · rw [hfind]

/-- The chain of a node, from the cluster its entry names. -/
theorem Represents.entry_chain (h : Represents dev tree) (hnode : tree (n :: k) = some node)
    (hmatch : node.Matches e) : ∃ l, node.chain = e.cluster :: l ∧ Allocatable e.cluster
      ∧ ChainOk dev.fat (e.cluster :: l) := by
  obtain ⟨l, hl⟩ := List.head?_eq_some_iff.mp hmatch.head
  have hchain := h.chain hnode
  rw [hl] at hchain
  exact ⟨l, hl, h.allocatable hnode (by rw [hl]; exact mem_cons_self ..), hchain⟩

section Runs

variable (hfind : fsFindExisting c n dev = .ok slot)

include hfind

theorem fsUnlinkAt_dir (hdir : slot.entry.isDir) : fsUnlinkAt fat c n dev = .error .notDir dev := by
  rw [fsUnlinkAt, bind_ok (query_ok hfind)]
  exact congrFun (if_pos hdir) dev

theorem fsUnlinkAt_file (hfile : slot.entry.isDir = false)
    (halloc : Allocatable slot.entry.cluster) :
    fsUnlinkAt fat c n dev = removeEntry slot fat dev := by
  rw [fsUnlinkAt, bind_ok (query_ok hfind)]
  refine (congrFun (if_neg (by rw [hfile]; decide)) dev).trans ?_
  exact congrFun (if_neg halloc.inRange) dev

theorem fsRmdirAt_file (hfile : slot.entry.isDir = false) :
    fsRmdirAt fat c n dev = .error .notDir dev := by
  rw [fsRmdirAt, bind_ok (query_ok hfind)]
  exact congrFun (if_pos (by rw [hfile]; rfl)) dev

theorem fsRmdirAt_dir (hdir : slot.entry.isDir) (halloc : Allocatable slot.entry.cluster)
    (hempty : fsDirectoryIsEmpty dev slot.entry.cluster = empty) : fsRmdirAt fat c n dev
      = (if (!empty) then throw .notEmpty else removeEntry slot fat : FsM Unit) dev := by
  subst hempty
  rw [fsRmdirAt, bind_ok (query_ok hfind)]
  refine (congrFun (if_neg (by rw [hdir]; decide)) dev).trans ?_
  refine (congrFun (if_neg halloc.inRange) dev).trans ?_
  exact bind_ok (query_ok rfl)

end Runs

/-- **UNLINK.** -/
theorem unlink_outcome (h : Represents dev tree) (path : CString) :
    Ends dev tree (.unlink path) := by
  rcases openParent_tree h path with ⟨n, _, c, l, _, hkey, hk, hopen⟩ | ⟨⟨_, hopen⟩, _⟩
  · have hcall : (FsOp.unlink path).call dev = fsUnlinkAt dev.fat c n dev :=
      (bind_ok hopen).trans rfl
    rcases find_tree h hk n with
      ⟨node, e, p, hnode, _, hname, hmatch, hp, hslot, hfind⟩ | ⟨_, hno⟩
    · have hexisting := fsFindExisting_found hfind rfl
      obtain rfl : entryAt (dev.data p.1) p.2 = e := slotAt_entry hslot
      have hpc : p.1 ∈ c :: l := mem_chain_of_visible hp
      cases node with
      | dir => exact Ends.unchanged h (hcall.trans (fsUnlinkAt_dir hexisting hmatch.1))
      | file _ content =>
        obtain ⟨_, rfl, halloc, hchain⟩ := h.entry_chain hnode hmatch
        refine Ends.remove h hk hkey hnode (.inl ⟨rfl, _, content, rfl⟩) hname hp hslot
          (hcall.trans ((fsUnlinkAt_file hexisting hmatch.1 halloc).trans ?_))
        exact removeEntry_ok h.healthy ((h.chain hk).data _ hpc) hchain halloc
    · exact Ends.unchanged h
        (hcall.trans (bind_error (query_error (fsFindExisting_absent h hk hno))))
  · exact Ends.unchanged h (bind_error hopen)

/-- **RMDIR.** -/
theorem rmdir_outcome (h : Represents dev tree) (path : CString) : Ends dev tree (.rmdir path) := by
  by_cases hroot : path.1 = [] ∨ path.1 = [0x2F]
  · have hcall : (FsOp.rmdir path).call dev = .error .invalidArg dev := congrFun (if_pos hroot) dev
    exact Ends.unchanged h hcall
  · rcases openParent_tree h path with ⟨n, _, c, l, _, hkey, hk, hopen⟩ | ⟨⟨_, hopen⟩, _⟩
    · have hcall : (FsOp.rmdir path).call dev = fsRmdirAt dev.fat c n dev :=
        (congrFun (if_neg hroot) dev).trans ((bind_ok hopen).trans rfl)
      rcases find_tree h hk n with
        ⟨node, e, p, hnode, _, hname, hmatch, hp, hslot, hfind⟩ | ⟨_, hno⟩
      · have hexisting := fsFindExisting_found hfind rfl
        obtain rfl : entryAt (dev.data p.1) p.2 = e := slotAt_entry hslot
        have hpc : p.1 ∈ c :: l := mem_chain_of_visible hp
        cases node with
        | file => exact Ends.unchanged h (hcall.trans (fsRmdirAt_file hexisting hmatch.1))
        | dir _ es =>
          obtain ⟨_, rfl, halloc, hchain⟩ := h.entry_chain hnode hmatch
          have hempty := empty_eq h.healthy hchain (h.dir hnode)
          have hrun := hcall.trans (fsRmdirAt_dir hexisting hmatch.1 halloc hempty)
          by_cases hes : es = []
          · subst hes
            refine Ends.remove h hk hkey hnode (.inr ⟨rfl, _, rfl⟩) hname hp hslot
              (hrun.trans ((congrFun (if_neg (by simp)) dev).trans ?_))
            exact removeEntry_ok h.healthy ((h.chain hk).data _ hpc) hchain halloc
          · exact Ends.unchanged h (hrun.trans (congrFun (if_pos (by simp [hes])) dev))
      · exact Ends.unchanged h
          (hcall.trans (bind_error (query_error (fsFindExisting_absent h hk hno))))
    · exact Ends.unchanged h ((congrFun (if_neg hroot) dev).trans (bind_error hopen))

end Remove

/-- **EVERY CALL** ends in one of the ways of `Outcome`. -/
theorem call_outcome (h : Represents dev tree) (op : FsOp) : Ends dev tree op := by
  cases op with
  | write path content append => exact write_outcome h path content append
  | mkdir path => exact mkdir_outcome h path
  | unlink path => exact unlink_outcome h path
  | rmdir path => exact rmdir_outcome h path

/-- The outcome of a call that succeeds, on the device it leaves. -/
theorem outcome_of_ok (h : Represents dev tree) (hrun : op.call dev = .ok () dev') :
    ∃ tree', Represents dev' tree' ∧ Outcome dev tree op dev' tree' := by
  obtain ⟨dev'', tree', h', hout⟩ := call_outcome h op
  obtain rfl : dev' = dev'' := (FsOp.after_ok hrun).symm.trans hout.after
  exact ⟨tree', h', hout⟩

end Calls

end Fs
