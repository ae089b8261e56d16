import SecureOS.FsTreeProofs

/-! # A slot for a new entry

A write or mkdir on a new name takes the first free slot the search sees, or the first
slot of a cluster that extends the directory. -/

namespace Fs

open Function List

open Sof (Byte)

/-- The search will see a new entry: a slot is free, or one more cluster is in its reach. -/
def Room (data : Nat → Block) (chain : List Nat) : Prop :=
  chain.length < 128 ∨ ∃ p ∈ visibleSlots chain, (slotOn data p).isFree

/-- **A PLACE FOR A NEW ENTRY**: the slot, and the table in memory and data the call goes on with.
    -/
structure Place (dev : Device) (chain : List Nat) (entries : List DirEntry) (slot : DirSlot)
    (fat : Fat) (data : Nat → Block) (chain' : List Nat) : Prop where
  ok : ChainOk fat chain'
  head : chain'.head? = chain.head?
  fresh : ∀ c ∈ chain', c ∈ chain ∨ fsFatGetEntry dev.fat c = 0
  frame : ∀ c, c ∉ chain' → fsFatGetEntry fat c = fsFatGetEntry dev.fat c
  used : ∀ c, fsFatGetEntry dev.fat c ≠ 0 → data c = dev.data c
  keeps : chain.length ≤ 128 → ∀ c ∈ chain, c ∈ chain'
  short : chain.length ≤ 128 → Room dev.data chain → chain'.length ≤ 128
  cluster : slot.cluster ∈ chain'
  offset : slot.offset ∈ slotOffsets
  absent : slot.found = false
  fill : ∀ data' : Nat → Block, (∀ c ∈ chain', c ≠ slot.cluster → data' c = data c) →
    (∀ i, i < slot.offset ∨ slot.offset + 32 ≤ i → data' slot.cluster i = slot.block i) →
    (slotOn data' (slot.cluster, slot.offset)).isUnused = false →
    (∀ e, slotOn data' (slot.cluster, slot.offset) = .entry e → ∀ x ∈ entries, x.name ≠ e.name) →
    ∃ entries', DirOk data' chain' entries' ∧ ∀ x, x ∈ entries' ↔ x ∈ entries
      ∨ (Room dev.data chain ∧ slotOn data' (slot.cluster, slot.offset) = .entry x)
  beyond : ∀ data' : Nat → Block, (∀ c ∈ chain', c ≠ slot.cluster → data' c = data c) →
    ∀ e, slotOn data' (slot.cluster, slot.offset) = .entry e → chain.length ≤ 128 →
    ¬ Room dev.data chain → 2048 < (entriesIn data' (slotsOf chain')).length

section Place

theorem names_insert (h : ((pre ++ post).map DirEntry.name).Nodup)
    (hne : ∀ x ∈ pre ++ post, x.name ≠ e.name) : ((pre ++ e :: post).map DirEntry.name).Nodup := by
  rw [map_append, map_cons, nodup_middle, ← map_append]
  refine nodup_cons.mpr ⟨fun hin => ?_, h⟩
  obtain ⟨x, hx, heq⟩ := mem_map.mp hin
  exact hne x hx heq

theorem Place.ofFree (hchain : ChainOk dev.fat chain) (hdir : DirOk dev.data chain entries)
    (hsplit : visibleSlots chain = front ++ p :: back)
    (hfront : ∀ q ∈ front, (slotOn dev.data q).isFree = false)
    (hfree : (slotOn dev.data p).isFree) :
    Place dev chain entries ⟨p.1, p.2, false, dev.data p.1⟩ dev.fat dev.data chain := by
  have hp : p ∈ visibleSlots chain := by
    rw [hsplit]
    exact mem_append_right _ (mem_cons_self ..)
  have hroom : Room dev.data chain := .inr ⟨p, hp, hfree⟩
  have haround := hdir.around hsplit
  rw [Slot.toEntry_of_free hfree] at haround
  refine ⟨hchain, rfl, fun c hc => .inl hc, fun _ _ => rfl, fun _ _ => rfl, fun _ c hc => hc,
    fun hlen _ => hlen, mem_chain_of_visible hp, (mem_slotsOf.mp hp).2, rfl,
    ?_, fun _ _ _ _ _ hno => absurd hroom hno⟩
  intro data' hclusters hbytes hused hnames
  refine ⟨_, hdir.setSlot hsplit (slotOn_around hchain.nodup hsplit hclusters hbytes)
    (fun q hq => Slot.isUnused_of_not_free (hfront q hq)) hused ?_, fun x => ?_⟩
  · have hold := hdir.names
    rw [haround] at hold
    cases hs : (slotOn data' p).toEntry with
    | none => exact hold
    | some e =>
      refine names_insert hold (fun x hx => hnames e (Slot.toEntry_eq_some.mp hs) x ?_)
      rw [haround]
      exact hx
  · have hmem : x ∈ entries ↔ x ∈ entriesIn dev.data front ∨ x ∈ entriesIn dev.data back := by
      rw [haround]
      exact mem_append
    rw [mem_append, mem_append, Option.mem_toList, Slot.toEntry_eq_some]
    tauto

/-- The slots in a list of clusters, and its entries where no slot is free. -/
theorem slotsOf_length (cs : List Nat) : (slotsOf cs).length = 16 * cs.length := by
  induction cs with
  | nil => rfl
  | cons c =>
    rw [slotsOf_cons, length_append, length_cons]
    have hone : (clusterSlots c).length = 16 := rfl
    omega

theorem entriesIn_length_of_full (h : ∀ p ∈ ps, (slotOn data p).isFree = false) :
    (entriesIn data ps).length = ps.length := by
  induction ps with
  | nil => rfl
  | cons p _ ih =>
    rw [entriesIn_cons, length_append, ih (fun q hq => h q (mem_cons_of_mem p hq)), length_cons]
    obtain ⟨_, he⟩ := Slot.entry_of_not_free (h p (mem_cons_self ..))
    rw [he, Slot.toEntry, Option.toList_some, length_singleton]
    omega

theorem zero_mem_slotOffsets : 0 ∈ slotOffsets := by decide

/-- An entry in a new cluster, in the reach of the search. -/
theorem DirOk.fillReach (hdir : DirOk data cs entries)
    (hlt : cs.length < 128) (hsame : ∀ c ∈ cs, data' c = data c)
    (hfull : ∀ q ∈ visibleSlots cs, (slotOn data q).isFree = false)
    (hused : (slotOn data' (new, 0)).isUnused = false)
    (hrest : ∀ off, 32 ≤ off → slotAt (data' new) off = .unused)
    (hnames : ∀ e, slotOn data' (new, 0) = .entry e → ∀ x ∈ entries, x.name ≠ e.name) :
    ∃ entries', DirOk data' (cs ++ [new]) entries'
      ∧ ∀ x, x ∈ entries' ↔ x ∈ entries ∨ slotOn data' (new, 0) = .entry x := by
  refine ⟨_, hdir.extend hlt hsame hfull hused hrest ?_, fun x => ?_⟩
  · cases hs : (slotOn data' (new, 0)).toEntry with
    | none =>
      rw [Option.toList_none, append_nil]
      exact hdir.names
    | some e =>
      refine names_insert (by rw [append_nil]; exact hdir.names) (fun x hx => ?_)
      rw [append_nil] at hx
      exact hnames e (Slot.toEntry_eq_some.mp hs) x hx
  · rw [mem_append, Option.mem_toList, Slot.toEntry_eq_some]

/-- Behind 128 clusters a change of the chain leaves the directory as it is. -/
theorem DirOk.fillBehind (hdir : DirOk data (front ++ cur :: back) entries)
    (hge : 128 ≤ (front ++ [cur]).length) (hsame : ∀ c ∈ front ++ [cur], data' c = data c) :
    DirOk data' (front ++ cur :: back') entries := by
  have htake : ∀ l, (front ++ cur :: l).take 128 = (front ++ [cur]).take 128 := by
    intro l
    have hassoc : front ++ cur :: l = front ++ [cur] ++ l := by simp
    rw [hassoc, take_append_of_le_length hge]
  refine hdir.frame ((htake back').trans (htake back).symm) (fun c hc => ?_)
  rw [htake] at hc
  exact hsame c (mem_of_mem_take hc)

/-- 128 clusters without a free slot, and one more entry. -/
theorem entries_beyond (hlen : cs.length = 128)
    (hfull : ∀ q ∈ slotsOf cs, (slotOn data q).isFree = false)
    (hslot : slotOn data (new, 0) = .entry e) :
    2048 < (entriesIn data (slotsOf (cs ++ [new]))).length := by
  have hone : e ∈ entriesIn data (slotsOf [new]) :=
    mem_entriesIn.mpr ⟨(new, 0), mem_slotsOf.mpr ⟨mem_singleton.mpr rfl, zero_mem_slotOffsets⟩,
      hslot⟩
  have hpos := length_pos_of_mem hone
  rw [slotsOf_append, entriesIn_append, length_append, entriesIn_length_of_full hfull,
    slotsOf_length, hlen]
  omega

theorem Place.ofNew (hchain : ChainOk dev.fat chain) (hdir : DirOk dev.data chain entries)
    (hfull : ∀ q ∈ visibleSlots chain, (slotOn dev.data q).isFree = false)
    (hsplit : chain = front ++ cur :: back) (hlen : front.length ≤ 128)
    (hend : back = [] ∨ front.length = 128) (halloc : Allocatable new)
    (hzero : fsFatGetEntry dev.fat new = 0) :
    Place dev chain entries ⟨new, 0, false, zeroBlock⟩ (chainNew dev.fat cur new)
      (update dev.data new zeroBlock) (front ++ [cur, new]) := by
  subst hsplit
  have hassoc : front ++ [cur, new] = front ++ [cur] ++ [new] := by simp
  have hnew : new ∉ front ++ cur :: back := fun hin => hchain.used hin hzero
  have hinside : ∀ c ∈ front ++ [cur], c ∈ front ++ cur :: back ∧ c ∈ front ++ [cur, new] := by
    intro c hc
    simp only [mem_append, mem_cons, not_mem_nil, or_false] at hc ⊢
    exact ⟨hc.imp_right .inl, hc.imp_right .inl⟩
  have hsame : ∀ data' : Nat → Block, (∀ c ∈ front ++ [cur, new], c ≠ new →
      data' c = update dev.data new zeroBlock c) → ∀ c ∈ front ++ [cur],
      data' c = dev.data c := by
    intro data' hclusters c hc
    have hne : c ≠ new := fun heq => hnew (heq ▸ (hinside c hc).1)
    rw [hclusters c (hinside c hc).2 hne, update_of_ne hne]
  have hnoroom : 128 ≤ (front ++ cur :: back).length → ¬ Room dev.data (front ++ cur :: back) := by
    rintro hge (hlt | ⟨p, hp, hfree⟩)
    · omega
    · cases (hfull p hp).symm.trans hfree
  have hback : (front ++ cur :: back).length ≤ 128 → back = [] := by
    intro hle
    rw [length_append, length_cons] at hle
    exact hend.resolve_right (by omega)
  refine ⟨hchain.chainNew halloc hzero, ?_, fun c hc => ?_, fun c hc => ?_, fun c hused => ?_,
    fun hle c hc => ?_, fun hle hroom => ?_, by simp, zero_mem_slotOffsets, rfl, ?_, ?_⟩
  · cases front <;> rfl
  · rw [hassoc, mem_append, mem_singleton] at hc
    exact hc.imp (fun hc => (hinside c hc).1) (fun hc : c = new => hc.symm ▸ hzero)
  · simp only [mem_append, mem_cons, not_mem_nil, or_false, not_or] at hc
    exact get_chainNew_of_ne hc.2.1 hc.2.2
  · exact update_of_ne (fun hc : c = new => hused (hc.symm ▸ hzero)) ..
  · rw [hback hle] at hc
    exact (hinside c hc).2
  · have hlt : (front ++ cur :: back).length < 128 := by
      by_contra hge
      exact hnoroom (by omega) hroom
    simp only [length_append, length_cons, length_nil] at hlt ⊢
    omega
  · intro data' hclusters hbytes hused hnames
    by_cases hlt : (front ++ cur :: back).length < 128
    · -- the new cluster is in the reach of the search
      obtain rfl := hback (by omega)
      have hrest : ∀ off, 32 ≤ off → slotAt (data' new) off = .unused := fun off hoff =>
        if_pos (hbytes off (.inr hoff))
      obtain ⟨entries', hdir', hmem⟩ :=
        hdir.fillReach hlt (hsame data' hclusters) hfull hused hrest hnames
      refine ⟨entries', by rw [hassoc]; exact hdir', fun x => ?_⟩
      rw [hmem]
      exact or_congr_right (and_iff_right (.inl hlt)).symm
    · -- it is behind the first 128 clusters
      have hge : 128 ≤ (front ++ [cur]).length := by
        rcases hend with rfl | hfront
        · omega
        · rw [length_append, hfront]
          omega
      have hno := hnoroom (by omega)
      exact ⟨entries, hdir.fillBehind hge (hsame data' hclusters),
        fun x => (or_iff_left (fun hx => hno hx.1)).symm⟩
  · intro data' hclusters _ hslot hle hno
    obtain rfl := hback hle
    have hlen128 : (front ++ [cur]).length = 128 := by
      by_contra hne
      exact hno (.inl (by omega))
    rw [hassoc]
    refine entries_beyond hlen128 (fun q hq => ?_) hslot
    rw [slotOn, hsame data' hclusters q.1 (mem_slotsOf.mp hq).1]
    refine hfull q ?_
    rw [visibleSlots, take_of_length_le hle]
    exact hq

theorem findOrExtend_found (fat : Fat) (hfind : fsFindEntryInDirExt dev c n = .ok slot) :
    fsFindOrExtend fat c n dev = .ok (slot, fat) dev := by
  rw [fsFindOrExtend, hfind]

/-- **A PLACE OR NO CLUSTER LEFT.** -/
theorem findOrExtend_absent (hd : Healthy dev)
    (hchain : ChainOk dev.fat (c :: l)) (hdir : DirOk dev.data (c :: l) entries)
    (hno : ∀ e ∈ entries, e.name ≠ n) : (∃ slot fat data chain', fsFindOrExtend dev.fat c n dev
        = .ok (slot, fat) { dev with data := data }
      ∧ Place dev (c :: l) entries slot fat data chain') ∨
    fsFindOrExtend dev.fat c n dev = .error .noSpace dev := by
  rw [fsFindOrExtend]
  rcases find_absent hd hchain hdir hno with
    ⟨_, _, _, hsplit, hfront, hfree, hfind⟩ | ⟨hfull, hfind⟩
  · rw [hfind]
    exact .inl ⟨_, _, _, _, rfl, Place.ofFree hchain hdir hsplit hfront hfree⟩
  · rw [hfind]
    obtain ⟨_, _, hsplit, hlen, hend⟩ := fsLastCluster_split 128 l c hchain
    cases hfree : fsFindFreeCluster dev.fat with
    | none =>
      have hext : fsExtendDirectory c dev.fat dev = .error .noSpace dev := by
        rw [fsExtendDirectory, hfree]
        rfl
      rw [orFail_error hext]
      exact .inr rfl
    | some new =>
      obtain ⟨halloc, hzero⟩ := fsFindFreeCluster_eq_some hfree
      have hext : fsExtendDirectory c dev.fat dev
          = .ok (new, chainNew dev.fat (fsLastCluster dev.fat 128 c) new)
            { dev with data := update dev.data new zeroBlock } := by
        rw [fsExtendDirectory, hfree]
        exact bind_ok (orFail_ok (fsWriteCluster_ok hd halloc.data))
      rw [orFail_ok hext]
      exact .inl ⟨_, _, _, _, rfl, Place.ofNew hchain hdir hfull hsplit hlen hend halloc hzero⟩

end Place

end Fs
