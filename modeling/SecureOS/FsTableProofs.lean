import Mathlib.Order.Interval.Finset.Nat
import SecureOS.FsDeviceProofs

/-! # Chains in the allocation table

The chain of a file or directory is a list of clusters linked in the table. -/

namespace Fs

open LinkChain (Linked)
open List

/-- A chain of data clusters, behind the first one from the allocatable range. -/
structure ChainOk (fat : Fat) (chain : List Nat) : Prop where
  linked : Linked (fatLink fat) chain
  data : ∀ c ∈ chain, DataCluster c
  tail : ∀ c ∈ chain.tail, Allocatable c

section Chain

variable {c : Nat}

theorem ChainOk.nodup (h : ChainOk fat chain) : chain.Nodup := h.linked.nodup

theorem ChainOk.used (h : ChainOk fat chain) (hc : c ∈ chain) : fsFatGetEntry fat c ≠ 0 := by
  intro hfree
  have hlink : fatLink fat c = some 0 := by rw [fatLink, hfree, if_neg (by decide)]
  have hmem := h.linked.next_mem hc hlink
  exact absurd (h.data 0 hmem).1 (by omega)

theorem ChainOk.frame (h : ChainOk fat chain)
    (hsame : ∀ c ∈ chain, fsFatGetEntry fat' c = fsFatGetEntry fat c) : ChainOk fat' chain :=
  ⟨h.linked.frame (fun c hc => fatLink_congr (hsame c hc)), h.data, h.tail⟩

variable {l : List Nat}

/-- A list of different data clusters has at most as many elements as there are. -/
theorem length_le_of_dataClusters (hnd : l.Nodup) (hdata : ∀ c ∈ l, DataCluster c) :
    l.length ≤ 8190 := by
  have hsub : l.toFinset ⊆ Finset.Icc 2 8191 := by
    intro c hc
    exact Finset.mem_Icc.mpr (hdata c (mem_toFinset.mp hc))
  have hcard := Finset.card_le_card hsub
  rwa [toFinset_card_of_nodup hnd, Nat.card_Icc] at hcard

theorem ChainOk.length_le (h : ChainOk fat chain) : chain.length ≤ 8190 :=
  length_le_of_dataClusters h.nodup h.data

theorem ChainOk.rest (h : ChainOk fat (c :: d :: l)) : ChainOk fat (d :: l) :=
  ⟨h.linked.2, fun x hx => h.data x (mem_cons_of_mem c hx),
    fun x hx => h.tail x (mem_of_mem_tail hx)⟩

theorem ChainOk.get_next (h : ChainOk fat (c :: d :: l)) : fsFatGetEntry fat c = d :=
  fatLink_eq_some h.linked.1

theorem ChainOk.get_last (h : ChainOk fat [c]) : fsFatGetEntry fat c = fatEntryEoc :=
  fatLink_eq_none.mp h.linked

theorem endsChain_allocatable (hc : Allocatable c) : endsChain c = false := by
  have hgt := fatEntryEoc_gt
  obtain ⟨_, _⟩ := hc
  rw [endsChain, Bool.or_eq_false_iff, Bool.or_eq_false_iff]
  refine ⟨⟨beq_false_of_ne (by omega), decide_eq_false (by omega)⟩, decide_eq_false (by omega)⟩

end Chain

/-! ## Freeing a chain -/

section Free

variable {fat : Fat}

/-- The table with a list of clusters freed. -/
def freeAll (fat : Fat) : List Nat → Fat
  | [] => fat
  | c :: l => freeAll (fsFatSetEntry fat c 0) l

variable {c : Nat}

theorem get_freeAll_of_notMem : ∀ (l : List Nat) (fat : Fat), c ∉ l →
    fsFatGetEntry (freeAll fat l) c = fsFatGetEntry fat c := by
  intro l
  induction l with
  | nil => exact fun _ _ => rfl
  | cons _ _ ih =>
    intro _ hc
    rw [mem_cons, not_or] at hc
    rw [freeAll, ih _ hc.2, get_set_of_ne hc.1]

theorem get_freeAll_of_mem (hmax : c ≤ 8191) : ∀ (l : List Nat) (fat : Fat), c ∈ l →
    fsFatGetEntry (freeAll fat l) c = 0 := by
  intro l
  induction l with
  | nil =>
    intro _ hc
    cases hc
  | cons _ l ih =>
    intro _ hc
    rw [freeAll]
    by_cases hin : c ∈ l
    · exact ih _ hin
    · rcases mem_cons.mp hc with rfl | hin'
      · rw [get_freeAll_of_notMem l _ hin, get_set_self hmax (Nat.zero_le _)]
      · exact absurd hin' hin

theorem fsFreeChainLoop_chain : ∀ (l : List Nat) (c fuel : Nat) (fat : Fat),
    ChainOk fat (c :: l) → l.length < fuel →
    fsFreeChainLoop fuel c fat = (.ok (), freeAll fat (c :: l)) := by
  intro l c fuel
  induction fuel generalizing l c with
  | zero => exact fun _ _ hfuel => absurd hfuel (Nat.not_lt_zero _)
  | succ _ ih =>
    intro fat h hfuel
    have hc := h.data c (mem_cons_self ..)
    rw [fsFreeChainLoop, if_pos (show 2 ≤ c ∧ c ≤ 8191 from hc)]
    cases l with
    | nil =>
      rw [h.get_last]
      exact if_pos (Or.inl rfl)
    | cons d l =>
      have hd := h.tail d (mem_cons_self ..)
      have hgt := fatEntryEoc_gt
      have hnotin := h.linked.head_notMem
      -- freeing the first cluster leaves the rest of the chain
      have hrest : ChainOk (fsFatSetEntry fat c 0) (d :: l) := by
        refine h.rest.frame (fun x hx => get_set_of_ne ?_)
        rintro rfl
        exact hnotin hx
      rw [h.get_next, if_neg (by have := hd.1; have := hd.2; omega),
        if_neg (by have := hd.1; have := hd.2; omega),
        ih l d _ hrest (Nat.lt_of_succ_lt_succ hfuel)]
      rfl

variable {l : List Nat}

theorem fsFreeClusterChain_chain (h : ChainOk fat (c :: l)) (hc : Allocatable c) :
    fsFreeClusterChain c fat = (.ok (), freeAll fat (c :: l)) := by
  have hlen := h.length_le
  rw [length_cons] at hlen
  obtain ⟨_, _⟩ := hc
  rw [fsFreeClusterChain, if_neg (by omega)]
  exact fsFreeChainLoop_chain l c 8192 fat h (by omega)

/-- Truncation frees what is behind the first cluster. -/
theorem truncateChain_chain (h : ChainOk fat (c :: l)) :
    truncateChain c fat = .ok (fsFatSetEntry (freeAll fat l) c fatEntryEoc) := by
  have hgt := fatEntryEoc_gt
  cases l with
  | nil =>
    rw [truncateChain, h.get_last]
    exact if_neg (by omega)
  | cons d =>
    have hd := h.tail d (mem_cons_self ..)
    rw [truncateChain, h.get_next, if_pos (show 3 ≤ d ∧ d ≤ 8191 from hd),
      fsFreeClusterChain_chain h.rest hd]

/-- A cluster with the end-of-chain mark is a chain. -/
theorem ChainOk.single (hc : DataCluster c) : ChainOk (fsFatSetEntry fat c fatEntryEoc) [c] := by
  refine ⟨fatLink_eq_none.mpr (get_set_self hc.2 (Nat.le_refl _)), ?_, ?_⟩
  · intro _ hx
    rw [mem_singleton.mp hx]
    exact hc
  · intro _ hx
    cases hx

theorem ChainOk.truncated (h : ChainOk fat (c :: l)) :
    ChainOk (fsFatSetEntry (freeAll fat l) c fatEntryEoc) [c] :=
  ChainOk.single (h.data c (mem_cons_self ..))

end Free

/-! ## Chains that grow -/

section Grow

variable {fat : Fat}

/-- The second chain extends the first by free clusters; nothing else of the table has changed. -/
structure Grown (fat fat' : Fat) (chain chain' : List Nat) : Prop where
  ok : ChainOk fat' chain'
  extends_ : chain <+: chain'
  fresh : ∀ c ∈ chain', c ∈ chain ∨ (Allocatable c ∧ fsFatGetEntry fat c = 0)
  frame : ∀ c, c ∉ chain' → fsFatGetEntry fat' c = fsFatGetEntry fat c

theorem Grown.refl (h : ChainOk fat chain) : Grown fat fat chain chain :=
  ⟨h, prefix_refl _, fun _ hc => .inl hc, fun _ _ => rfl⟩

theorem Grown.trans (h₁ : Grown fat fat' chain chain') (h₂ : Grown fat' fat'' chain' chain'') :
    Grown fat fat'' chain chain'' := by
  refine ⟨h₂.ok, h₁.extends_.trans h₂.extends_, fun c hc => ?_, fun c hc => ?_⟩
  · by_cases hmid : c ∈ chain'
    · exact h₁.fresh c hmid
    · rcases h₂.fresh c hc with hin | ⟨halloc, hfree⟩
      · exact absurd hin hmid
      · rw [h₁.frame c hmid] at hfree
        exact .inr ⟨halloc, hfree⟩
  · have hmid : c ∉ chain' := fun hin => hc (h₂.extends_.subset hin)
    rw [h₂.frame c hc, h₁.frame c hmid]

variable {c : Nat}

/-- A cluster in use outside the chain stays outside. -/
theorem Grown.notMem (h : Grown fat fat' chain chain') (hout : c ∉ chain)
    (hused : fsFatGetEntry fat c ≠ 0) : c ∉ chain' := by
  intro hin
  rcases h.fresh c hin with hin' | ⟨_, hfree⟩
  · exact hout hin'
  · exact hused hfree

theorem get_chainNew_last (ha : a ≤ 8191) (hb : b ≤ 8191) (hne : a ≠ b) :
    fsFatGetEntry (chainNew fat a b) a = b := by
  have hgt := fatEntryEoc_gt
  rw [chainNew, get_set_of_ne hne, get_set_self ha (by omega)]

theorem get_chainNew_new (hb : b ≤ 8191) : fsFatGetEntry (chainNew fat a b) b = fatEntryEoc := by
  rw [chainNew, get_set_self hb (Nat.le_refl _)]

theorem get_chainNew_of_ne (ha : c ≠ a) (hb : c ≠ b) :
    fsFatGetEntry (chainNew fat a b) c = fsFatGetEntry fat c := by
  rw [chainNew, get_set_of_ne hb, get_set_of_ne ha]

/-- A free cluster chained behind a cluster: what was behind that cluster is cut off. -/
theorem ChainOk.chainNew (h : ChainOk fat (front ++ a :: back)) (hb : Allocatable b)
    (hfree : fsFatGetEntry fat b = 0) : ChainOk (chainNew fat a b) (front ++ [a, b]) := by
  have hgt := fatEntryEoc_gt
  have ha := h.data a (by simp)
  have hbout : b ∉ front ++ a :: back := fun hin => h.used hin hfree
  have hab : a ≠ b := by
    rintro rfl
    exact hbout (by simp)
  have hlast : fatLink (Fs.chainNew fat a b) a = some b := by
    rw [fatLink, get_chainNew_last ha.2 hb.2 hab, if_neg (by have := hb.2; omega)]
  have hnew : fatLink (Fs.chainNew fat a b) b = none := fatLink_eq_none.mpr (get_chainNew_new hb.2)
  have hsame : ∀ c ∈ front, fatLink (Fs.chainNew fat a b) c = fatLink fat c := by
    intro c hc
    refine fatLink_congr (get_chainNew_of_ne ?_ ?_)
    · rintro rfl
      exact h.linked.notMem_front hc
    · rintro rfl
      exact hbout (mem_append_left _ hc)
  refine ⟨h.linked.prepend hsame ⟨hlast, hnew⟩, fun c hc => ?_, fun c hc => ?_⟩
  · rcases mem_append.mp hc with hc | hc
    · exact h.data c (mem_append_left _ hc)
    · rcases mem_pair.mp hc with rfl | rfl
      · exact ha
      · exact hb.data
  · -- the first cluster of the chain is not in the tail, also where it is the last one
    cases front with
    | nil =>
      rw [nil_append, tail_cons, mem_singleton] at hc
      rw [hc]
      exact hb
    | cons =>
      rcases mem_append.mp hc with hc | hc
      · exact h.tail c (mem_append_left _ hc)
      · rcases mem_pair.mp hc with rfl | rfl
        · exact h.tail c (by simp)
        · exact hb

/-- **ONE STEP**: a free cluster behind the last cluster of a chain. -/
theorem Grown.step (h : ChainOk fat (front ++ [a]))
    (hb : Allocatable b) (hfree : fsFatGetEntry fat b = 0) :
    Grown fat (chainNew fat a b) (front ++ [a]) (front ++ [a, b]) := by
  refine ⟨h.chainNew hb hfree, ⟨[b], by simp⟩, fun c hc => ?_, fun c hc => ?_⟩
  · rcases mem_append.mp hc with hc | hc
    · exact .inl (mem_append_left _ hc)
    · rcases mem_pair.mp hc with rfl | rfl
      · exact .inl (by simp)
      · exact .inr ⟨hb, hfree⟩
  · simp only [mem_append, mem_cons, not_mem_nil, or_false, not_or] at hc
    exact get_chainNew_of_ne hc.2.1 hc.2.2

/-! ## The step of the loops that write a file -/

/-- Inside the chain the step goes to the next cluster. -/
theorem fsNextOrExtend_inside (h : ChainOk fat (front ++ a :: b :: back)) :
    fsNextOrExtend zeroFill fat a dev = .ok (b, fat) dev := by
  have hgt := fatEntryEoc_gt
  have hsuffix : Linked (fatLink fat) (a :: b :: back) := h.linked.suffix (by simp)
  have hb : Allocatable b := by
    refine h.tail b ?_
    cases front <;> simp
  obtain ⟨_, _⟩ := hb
  rw [fsNextOrExtend, fatLink_eq_some hsuffix.1]
  rw [if_neg (by omega), if_neg (by omega)]
  rfl

theorem get_last_of_chain (h : ChainOk fat (front ++ [a])) : fsFatGetEntry fat a = fatEntryEoc :=
  fatLink_eq_none.mp (h.linked.suffix (cons_ne_nil a []))

/-- The data after the step: a new cluster is cleared where the caller asks for it. -/
def fillNew (zeroFill : Bool) (data : Nat → Block) (new : Nat) : Nat → Block :=
  if zeroFill then Function.update data new zeroBlock else data

theorem fillNew_of_ne (h : c ≠ new) : fillNew zeroFill data new c = data c := by
  cases zeroFill with
  | true => exact Function.update_of_ne h ..
  | false => rfl

/-- Behind the last cluster the chain is extended. -/
theorem fsNextOrExtend_last (hd : Healthy dev) (h : ChainOk fat (front ++ [a]))
    (hfree : fsFindFreeCluster fat = some b) :
    fsNextOrExtend zeroFill fat a dev = .ok (b, chainNew fat a b)
      { dev with data := fillNew zeroFill dev.data b } := by
  have hb := (fsFindFreeCluster_eq_some hfree).1
  rw [fsNextOrExtend, get_last_of_chain h]
  rw [hfree]
  cases zeroFill with
  | true => exact bind_ok (orFail_ok (fsWriteCluster_ok hd hb.data))
  | false => rfl

end Grow

/-! ## The clusters that are left -/

/-- The free clusters of the allocatable range. -/
def freeClusters (fat : Fat) : Finset Nat :=
  (Finset.Icc 3 8191).filter (fun c => fsFatGetEntry fat c = 0)

section Left

theorem mem_freeClusters : c ∈ freeClusters fat ↔ Allocatable c ∧ fsFatGetEntry fat c = 0 := by
  rw [freeClusters, Finset.mem_filter, Finset.mem_Icc]
  rfl

theorem freeClusters_eq_empty (h : fsFindFreeCluster fat = none) : freeClusters fat = ∅ := by
  refine Finset.eq_empty_of_forall_notMem (fun c hc => ?_)
  obtain ⟨halloc, hfree⟩ := mem_freeClusters.mp hc
  exact fsFindFreeCluster_eq_none h halloc hfree

/-- A chain and the free clusters are at most the clusters there are. -/
theorem ChainOk.length_add_free_le (h : ChainOk fat chain) :
    chain.length + (freeClusters fat).card ≤ 8190 := by
  rw [← Finset.length_toList, ← length_append]
  refine length_le_of_dataClusters (h.nodup.append (Finset.nodup_toList _) ?_) ?_
  · intro c hc hfree
    exact h.used hc (mem_freeClusters.mp (Finset.mem_toList.mp hfree)).2
  · intro c hc
    rcases mem_append.mp hc with hc | hc
    · exact h.data c hc
    · exact (mem_freeClusters.mp (Finset.mem_toList.mp hc)).1.data

/-- A step of a chain takes one cluster. -/
theorem card_freeClusters_chainNew (ha : fsFatGetEntry fat a ≠ 0) :
    (freeClusters fat).card ≤ (freeClusters (chainNew fat a b)).card + 1 := by
  have hsub : freeClusters fat ⊆ insert b (freeClusters (chainNew fat a b)) := by
    intro c hc
    obtain ⟨halloc, hfree⟩ := mem_freeClusters.mp hc
    by_cases hb : c = b
    · rw [hb]
      exact Finset.mem_insert_self ..
    · have hne : c ≠ a := by
        rintro rfl
        exact ha hfree
      refine Finset.mem_insert_of_mem (mem_freeClusters.mpr ⟨halloc, ?_⟩)
      rw [get_chainNew_of_ne hne hb, hfree]
  exact (Finset.card_le_card hsub).trans (Finset.card_insert_le ..)

/-- Truncation gives back what was behind the first cluster. -/
theorem card_freeClusters_truncated (h : ChainOk fat (c :: l)) : (freeClusters fat).card + l.length
      ≤ (freeClusters (fsFatSetEntry (freeAll fat l) c fatEntryEoc)).card := by
  have hnd := nodup_cons.mp h.nodup
  have hdisj : Disjoint (freeClusters fat) l.toFinset := by
    refine Finset.disjoint_left.mpr (fun d hd hin => ?_)
    exact h.used (mem_cons_of_mem c (mem_toFinset.mp hin)) (mem_freeClusters.mp hd).2
  have hsub : freeClusters fat ∪ l.toFinset
      ⊆ freeClusters (fsFatSetEntry (freeAll fat l) c fatEntryEoc) := by
    intro d hd
    rcases Finset.mem_union.mp hd with hd | hd
    · obtain ⟨halloc, hfree⟩ := mem_freeClusters.mp hd
      have hout : d ∉ c :: l := fun hin => h.used hin hfree
      rw [mem_cons, not_or] at hout
      refine mem_freeClusters.mpr ⟨halloc, ?_⟩
      rw [get_set_of_ne hout.1, get_freeAll_of_notMem l fat hout.2, hfree]
    · have hin := mem_toFinset.mp hd
      have hne : d ≠ c := by
        rintro rfl
        exact hnd.1 hin
      refine mem_freeClusters.mpr ⟨h.tail d hin, ?_⟩
      rw [get_set_of_ne hne, get_freeAll_of_mem (h.tail d hin).2 l fat hin]
  have hcard := Finset.card_le_card hsub
  rwa [Finset.card_union_of_disjoint hdisj, toFinset_card_of_nodup hnd.2] at hcard

/-- **THE STEP OF THE LOOPS** goes to the chain's next cluster or a new one, or none is left. -/
theorem fsNextOrExtend_spec (zeroFill : Bool)
    (hd : Healthy dev) (h : ChainOk fat (front ++ cur :: back)) :
    (∃ next fat₁ back₁ data₁, fsNextOrExtend zeroFill fat cur dev
        = .ok (next, fat₁) { dev with data := data₁ }
      ∧ Grown fat fat₁ (front ++ cur :: back) (front ++ cur :: next :: back₁)
      ∧ (cur :: back).length + (freeClusters fat).card
        ≤ (cur :: next :: back₁).length + (freeClusters fat₁).card
      ∧ (∀ c, fsFatGetEntry fat c ≠ 0 → data₁ c = dev.data c)
      ∧ (zeroFill = false → data₁ = dev.data)) ∨
    (back = [] ∧ fsFindFreeCluster fat = none
      ∧ fsNextOrExtend zeroFill fat cur dev = .error .noSpace dev) := by
  cases back with
  | cons next back =>
    exact .inl ⟨next, fat, back, dev.data, fsNextOrExtend_inside h, Grown.refl h, Nat.le_refl _,
      fun _ _ => rfl, fun _ => rfl⟩
  | nil =>
    cases hfree : fsFindFreeCluster fat with
    | none =>
      refine .inr ⟨rfl, rfl, ?_⟩
      rw [fsNextOrExtend, get_last_of_chain h, hfree]
      rfl
    | some new =>
      obtain ⟨halloc, hzero⟩ := fsFindFreeCluster_eq_some hfree
      have hcard := card_freeClusters_chainNew (b := new) (h.used (c := cur) (by simp))
      refine .inl ⟨new, _, [], _, fsNextOrExtend_last hd h hfree, Grown.step h halloc hzero,
        ?_, fun c hused => ?_, ?_⟩
      · simp only [length_cons, length_nil]
        omega
      · -- the new cluster was free
        refine fillNew_of_ne ?_
        rintro rfl
        exact hused hzero
      · rintro rfl
        rfl

end Left

/-! ## Freeing on any table -/

section Walk

open Relation (ReflTransGen)

/-- The walk goes from a cluster to another. -/
def LinksTo (fat : Fat) (c d : Nat) : Prop := fsFatGetEntry fat c = d ∧ Allocatable d

/-- The clusters on the walk from a cluster are free, and the other entries are as they were. -/
def FreesWalk (fat : Fat) (c : Nat) (fat' : Fat) : Prop :=
  ∀ x : Fin 8192, (ReflTransGen (LinksTo fat) c x → fat' x = 0)
    ∧ (¬ ReflTransGen (LinksTo fat) c x → fat' x = fat x)

/-- The loop of `fs_free_cluster_chain`, run to its end. -/
inductive FreeRun : Nat → Fat → Except FsError Unit × Fat → Prop
  | last : fsFatGetEntry fat c = fatEntryEoc ∨ fsFatGetEntry fat c = 0 →
      FreeRun c fat (.ok (), fsFatSetEntry fat c 0)
  | broken : ¬ (fsFatGetEntry fat c = fatEntryEoc ∨ fsFatGetEntry fat c = 0) →
      ¬ Allocatable (fsFatGetEntry fat c) →
      FreeRun c fat (.error .storage, fsFatSetEntry fat c 0)
  | next : Allocatable (fsFatGetEntry fat c) →
      FreeRun (fsFatGetEntry fat c) (fsFatSetEntry fat c 0) r → FreeRun c fat r

/-- A walk is its first cluster, and the walk from the next one once the first is free. -/
theorem walk_cut (hc : Allocatable c) (hd : LinksTo fat c d) : ReflTransGen (LinksTo fat) c x
      ↔ x = c ∨ ReflTransGen (LinksTo (fsFatSetEntry fat c 0)) d x := by
  constructor
  · intro h
    induction h with
    | refl => exact .inl rfl
    | @tail y _ _ hyz ih =>
      by_cases hy : y = c
      · rw [← hyz.1, hy, hd.1]
        exact .inr .refl
      · refine .inr ((ih.resolve_left hy).tail ⟨?_, hyz.2⟩)
        rw [get_set_of_ne hy, hyz.1]
  · rintro (rfl | h)
    · exact .refl
    · refine .head hd (ReflTransGen.mono (fun y z hyz => ⟨?_, hyz.2⟩) _ _ h)
      have hy : y ≠ c := by
        rintro rfl
        have hzero := hyz.1.symm.trans (get_set_self hc.2 (Nat.zero_le _))
        exact absurd hyz.2.1 (by omega)
      rw [← hyz.1, get_set_of_ne hy]

theorem insert_freeClusters (hc : Allocatable c) :
    insert c (freeClusters fat) ⊆ freeClusters (fsFatSetEntry fat c 0) := by
  intro e he
  by_cases hec : e = c
  · rw [hec]
    exact mem_freeClusters.mpr ⟨hc, get_set_self hc.2 (Nat.zero_le _)⟩
  · have hin := mem_freeClusters.mp ((Finset.mem_insert.mp he).resolve_left hec)
    exact mem_freeClusters.mpr ⟨hin.1, (get_set_of_ne hec).trans hin.2⟩

/-- A round that goes on makes a cluster free, so the loop ends while there is fuel. -/
theorem fsFreeChainLoop_walk : ∀ (fuel c : Nat) (fat : Fat), Allocatable c →
    8189 < (freeClusters fat).card + fuel → FreeRun c fat (fsFreeChainLoop fuel c fat)
      ∧ FreesWalk fat c (fsFreeChainLoop fuel c fat).2 := by
  intro fuel
  induction fuel with
  | zero =>
    intro _ fat _ hfuel
    have hcard : (freeClusters fat).card ≤ _ := Finset.card_filter_le ..
    rw [Nat.card_Icc] at hcard
    omega
  | succ fuel ih =>
    intro c fat hc hfuel
    have hgt := fatEntryEoc_gt
    rw [fsFreeChainLoop, if_pos (show 2 ≤ c ∧ c ≤ 8191 from hc.data)]
    by_cases hd : Allocatable (fsFatGetEntry fat c)
    · have hcard : (insert c (freeClusters fat)).card ≤ _ :=
        Finset.card_le_card (insert_freeClusters hc)
      have hnot : c ∉ freeClusters fat := fun hin =>
        absurd hd.1 (by rw [(mem_freeClusters.mp hin).2]; decide)
      rw [Finset.card_insert_of_notMem hnot] at hcard
      obtain ⟨hrun, htable⟩ := ih _ (fsFatSetEntry fat c 0) hd (by omega)
      have hrest := hd
      obtain ⟨_, _⟩ := hrest
      rw [if_neg (by omega), if_neg (by omega)]
      refine ⟨.next hd hrun, fun x => ?_⟩
      rw [walk_cut hc ⟨rfl, hd⟩]
      by_cases hx : ReflTransGen (LinksTo (fsFatSetEntry fat c 0)) (fsFatGetEntry fat c) x
      · exact ⟨fun _ => (htable x).1 hx, fun hno => absurd (.inr hx) hno⟩
      · rw [(htable x).2 hx]
        exact ⟨fun h => if_pos (h.resolve_right hx), fun hno => if_neg (fun h => hno (.inl h))⟩
    · have hwalk : FreesWalk fat c (fsFatSetEntry fat c 0) := by
        refine fun x => ⟨fun h => if_pos ?_, fun hno => if_neg ?_⟩
        · rcases h.cases_head with h | ⟨_, h, _⟩
          · exact h.symm
          · exact absurd (h.1 ▸ h.2) hd
        · rintro rfl
          exact hno .refl
      dsimp only
      split_ifs with hend hout
      · exact ⟨.last hend, hwalk⟩
      · exact ⟨.broken hend hd, hwalk⟩
      · exact absurd ⟨by omega, by omega⟩ hd

/-- **FREEING ENDS AND IS EXACT**: on every table, the clusters on the walk from the first one are
    made free, and no other entry changes. -/
theorem free_chain_exact (fat : Fat) (c : Nat) :
    (Allocatable c → FreeRun c fat (fsFreeClusterChain c fat)
        ∧ FreesWalk fat c (fsFreeClusterChain c fat).2)
      ∧ (¬ Allocatable c → fsFreeClusterChain c fat = (.error .invalidArg, fat)) := by
  rw [fsFreeClusterChain]
  split
  case isTrue hout =>
    refine ⟨fun hc => absurd hout ?_, fun _ => rfl⟩
    obtain ⟨_, _⟩ := hc
    omega
  case isFalse hin =>
    have hc : Allocatable c := ⟨by omega, by omega⟩
    exact ⟨fun _ => fsFreeChainLoop_walk 8192 c fat hc (by omega), fun hno => absurd hc hno⟩

end Walk

/-! ## The end of a directory -/

/-- The walk stops at the last cluster, or at the one the fuel leads to. -/
theorem fsLastCluster_split : ∀ (fuel : Nat) (l : List Nat) (c : Nat),
    ChainOk fat (c :: l) → ∃ front back, c :: l = front ++ fsLastCluster fat fuel c :: back
      ∧ front.length ≤ fuel ∧ (back = [] ∨ front.length = fuel) := by
  intro fuel
  induction fuel with
  | zero => exact fun l c _ => ⟨[], l, rfl, Nat.le_refl _, .inr rfl⟩
  | succ _ ih =>
    intro l c h
    cases l with
    | nil =>
      rw [fsLastCluster, h.get_last]
      exact ⟨[], [], rfl, Nat.zero_le _, .inl rfl⟩
    | cons d l =>
      obtain ⟨front, back, hsplit, _, hend⟩ := ih l d h.rest
      rw [fsLastCluster, h.get_next]
      rw [endsChain_allocatable (h.tail d (mem_cons_self ..))]
      refine ⟨c :: front, back, congrArg (c :: ·) hsplit, ?_, ?_⟩
      · rw [length_cons]
        omega
      · rcases hend with hnil | hfuel
        · exact .inl hnil
        · exact .inr (by rw [length_cons, hfuel])

end Fs
