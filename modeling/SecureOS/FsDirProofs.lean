import SecureOS.FsTableProofs
import SecureOS.FsSlotProofs

/-! # Directories

The slots of a directory are the slots of its chain, of which the loops see those in the first
128 clusters. -/

namespace Fs

open Sof (Byte)
open List
open ByteStore (load store)
open LinkChain (Linked)

/-! ## Slots -/

def Slot.toEntry : Slot → Option DirEntry
  | .entry e => some e
  | _ => none

def Slot.isUnused : Slot → Bool
  | .unused => true
  | _ => false

def Slot.isFree : Slot → Bool
  | .entry _ => false
  | _ => true

def Slot.holds (name : Name83) : Slot → Bool
  | .entry e => e.name = name
  | _ => false

section Kinds

variable {s : Slot}

theorem Slot.toEntry_eq_some : s.toEntry = some e ↔ s = .entry e := by
  cases s with
  | entry => rw [Slot.toEntry, Option.some.injEq, Slot.entry.injEq]
  | _ => exact iff_of_false (by simp [Slot.toEntry]) (by simp)

theorem Slot.holds_iff : s.holds name ↔ ∃ e, s = .entry e ∧ e.name = name := by
  cases s with
  | entry => simp [Slot.holds]
  | _ => exact iff_of_false Bool.false_ne_true (by simp)

theorem Slot.toEntry_of_free (h : s.isFree) : s.toEntry = none := by
  cases s with
  | unused | deleted => rfl
  | entry => cases h

theorem Slot.entry_of_not_free (h : s.isFree = false) : ∃ e, s = .entry e := by
  cases s with
  | entry e => exact ⟨e, rfl⟩
  | _ => cases h

theorem Slot.isFree_of_unused (h : s.isUnused) : s.isFree := by
  cases s with
  | unused | deleted => rfl
  | entry => cases h

theorem Slot.isUnused_of_not_free (h : s.isFree = false) : s.isUnused = false := by
  obtain ⟨_, rfl⟩ := Slot.entry_of_not_free h
  rfl

end Kinds

/-- The slot at an offset in a cluster. -/
def slotOn (data : Nat → Block) (p : Nat × Nat) : Slot := slotAt (data p.1) p.2

/-- The slots of one cluster. -/
def clusterSlots (c : Nat) : List (Nat × Nat) := slotOffsets.map (fun off => (c, off))

/-- The slots of a list of clusters. -/
def slotsOf (cs : List Nat) : List (Nat × Nat) := cs.flatMap clusterSlots

/-- The slots of a directory that the loops see. -/
def visibleSlots (chain : List Nat) : List (Nat × Nat) := slotsOf (chain.take 128)

/-- The entries in a list of slots. -/
def entriesIn (data : Nat → Block) (ps : List (Nat × Nat)) : List DirEntry :=
  ps.filterMap (fun p => (slotOn data p).toEntry)

/-- The entries of a directory that the loops see. -/
def dirEntries (data : Nat → Block) (chain : List Nat) : List DirEntry :=
  entriesIn data (visibleSlots chain)

/-- Behind an unused slot there are only unused slots. -/
def MarksOk (data : Nat → Block) (ps : List (Nat × Nat)) : Prop :=
  ps.Pairwise (fun p q => (slotOn data p).isUnused = true → (slotOn data q).isUnused)

section Slots

variable {data : Nat → Block} {ps : List (Nat × Nat)} {p : Nat × Nat}

theorem slotsOf_cons (c : Nat) (cs : List Nat) : slotsOf (c :: cs) = clusterSlots c ++ slotsOf cs :=
  flatMap_cons

theorem slotsOf_append (cs ds : List Nat) : slotsOf (cs ++ ds) = slotsOf cs ++ slotsOf ds :=
  flatMap_append

theorem entriesIn_append (data : Nat → Block) (ps qs : List (Nat × Nat)) :
    entriesIn data (ps ++ qs) = entriesIn data ps ++ entriesIn data qs :=
  filterMap_append

theorem entriesIn_cons (data : Nat → Block) (p : Nat × Nat) (ps : List (Nat × Nat)) :
    entriesIn data (p :: ps) = (slotOn data p).toEntry.toList ++ entriesIn data ps := by
  rw [entriesIn, filterMap_cons]
  cases (slotOn data p).toEntry <;> rfl

theorem mem_entriesIn : e ∈ entriesIn data ps ↔ ∃ p ∈ ps, slotOn data p = .entry e := by
  rw [entriesIn, mem_filterMap]
  constructor
  · rintro ⟨p, hp, he⟩
    exact ⟨p, hp, Slot.toEntry_eq_some.mp he⟩
  · rintro ⟨p, hp, he⟩
    exact ⟨p, hp, Slot.toEntry_eq_some.mpr he⟩

theorem entriesIn_congr (h : ∀ p ∈ ps, slotOn data' p = slotOn data p) :
    entriesIn data' ps = entriesIn data ps := by
  refine filterMap_congr (fun p hp => ?_)
  rw [h p hp]

theorem entriesIn_unused (h : ∀ p ∈ ps, (slotOn data p).isUnused) : entriesIn data ps = [] := by
  rw [entriesIn, filterMap_eq_nil_iff]
  intro p hp
  exact Slot.toEntry_of_free (Slot.isFree_of_unused (h p hp))

theorem MarksOk.congr (hm : MarksOk data ps) (h : ∀ p ∈ ps, slotOn data' p = slotOn data p) :
    MarksOk data' ps := by
  refine List.Pairwise.imp_of_mem ?_ hm
  intro p q hp hq hpq
  rw [h p hp, h q hq]
  exact hpq

section

variable (h : MarksOk data (ps ++ qs))
include h

theorem MarksOk.left : MarksOk data ps := (pairwise_append.mp h).1

theorem MarksOk.right : MarksOk data qs := (pairwise_append.mp h).2.1

/-- Behind an unused slot in front, all slots are unused. -/
theorem MarksOk.behind (hp : p ∈ ps)
    (hun : (slotOn data p).isUnused) : ∀ q ∈ qs, (slotOn data q).isUnused :=
  fun q hq => (pairwise_append.mp h).2.2 p hp q hq hun

end

theorem mem_slotsOf : p ∈ slotsOf cs ↔ p.1 ∈ cs ∧ p.2 ∈ slotOffsets := by
  rw [slotsOf, mem_flatMap]
  constructor
  · rintro ⟨_, hc, hp⟩
    obtain ⟨_, hoff, rfl⟩ := mem_map.mp hp
    exact ⟨hc, hoff⟩
  · rintro ⟨hc, hoff⟩
    exact ⟨p.1, hc, mem_map.mpr ⟨p.2, hoff, rfl⟩⟩

theorem mem_chain_of_visible (h : p ∈ visibleSlots chain) : p.1 ∈ chain :=
  mem_of_mem_take (mem_slotsOf.mp h).1

theorem mem_slotOffsets : off ∈ slotOffsets ↔ ∃ i, i < 16 ∧ off = 32 * i := by
  rw [slotOffsets, mem_map]
  constructor
  · rintro ⟨i, hi, rfl⟩
    exact ⟨i, mem_range.mp hi, rfl⟩
  · rintro ⟨i, hi, rfl⟩
    exact ⟨i, mem_range.mpr hi, rfl⟩

theorem slotOffsets_nodup : slotOffsets.Nodup := by decide

theorem slotsOf_nodup (h : cs.Nodup) : (slotsOf cs).Nodup := by
  refine nodup_flatMap.mpr ⟨fun c _ => ?_, ?_⟩
  · exact slotOffsets_nodup.map (fun _ _ heq => (Prod.mk.inj heq).2)
  · refine List.Pairwise.imp ?_ h
    intro _ _ hne _ hp hq
    obtain ⟨_, _, rfl⟩ := mem_map.mp hp
    obtain ⟨_, _, heq⟩ := mem_map.mp hq
    exact hne (Prod.mk.inj heq).1.symm

end Slots

/-! ## Loops over a chain -/

section Walk

variable {β σ : Type} (visit : Nat → Block → Nat → σ → Except FsError (Visit β σ))
  (finish : σ → Except FsError β)

/-- A loop over a list of slots that takes every one of them. -/
def visitSlots (data : Nat → Block) : List (Nat × Nat) → σ → Except FsError β
  | [], s => finish s
  | p :: ps, s =>
    match visit p.1 (data p.1) p.2 s with
    | .error e => .error e
    | .ok (.done r) => .ok r
    | .ok (.nextCluster s) => visitSlots data ps s
    | .ok (.nextSlot s) => visitSlots data ps s

/-- A loop leaves a cluster at unused slots only, and then other unused slots tell it nothing. -/
def Skips (data : Nat → Block) : Prop :=
  ∀ p s s', visit p.1 (data p.1) p.2 s = .ok (.nextCluster s') → (slotOn data p).isUnused ∧
    ∀ q, (slotOn data q).isUnused → visit q.1 (data q.1) q.2 s' = .ok (.nextCluster s')

variable {visit finish}

theorem visitSlots_skip
    (h : ∀ q, (slotOn data q).isUnused → visit q.1 (data q.1) q.2 s = .ok (.nextCluster s)) :
    ∀ ps : List (Nat × Nat), (∀ q ∈ ps, (slotOn data q).isUnused) →
      visitSlots visit finish data (ps ++ rest) s = visitSlots visit finish data rest s := by
  intro ps
  induction ps with
  | nil => exact fun _ => rfl
  | cons p _ ih =>
    intro hps
    obtain ⟨hp, hps⟩ := forall_mem_cons.mp hps
    rw [cons_append, visitSlots, h p hp]
    exact ih hps

/-- The slots of one cluster, and what follows them. -/
theorem scanSlots_visit (hskip : Skips visit data) (c : Nat) : ∀ (offs : List Nat) (s : σ),
    MarksOk data (offs.map (fun off => (c, off))) →
      (match scanSlots visit c (data c) offs s with
        | .error e => .error e
        | .ok (.inl r) => .ok r
        | .ok (.inr s) => visitSlots visit finish data rest s)
      = visitSlots visit finish data (offs.map (fun off => (c, off)) ++ rest) s := by
  intro offs
  induction offs with
  | nil => exact fun _ _ => rfl
  | cons off _ ih =>
    intro s hm
    rw [map_cons] at hm ⊢
    obtain ⟨hhead, hm⟩ := pairwise_cons.mp hm
    rw [scanSlots, cons_append, visitSlots]
    cases hv : visit c (data c) off s with
    | error => rfl
    | ok v =>
      cases v with
      | done => rfl
      | nextSlot s' => exact ih s' hm
      | nextCluster s' =>
        obtain ⟨hun, hrest⟩ := hskip (c, off) s s' hv
        exact (visitSlots_skip hrest _ (fun q hq => hhead q hq hun)).symm

/-- One round of a loop at a cluster, with what it does behind the cluster. -/
theorem walkDir_round (hskip : Skips visit dev.data) (hd : Healthy dev) (hc : DataCluster c)
    (hm : MarksOk dev.data (clusterSlots c))
    (hrest : ∀ s, (if endsChain (fsFatGetEntry fat c) then finish s
        else walkDir visit finish dev fat fuel (fsFatGetEntry fat c) s)
      = visitSlots visit finish dev.data rest s) (s : σ) :
    walkDir visit finish dev fat (fuel + 1) c s
      = visitSlots visit finish dev.data (clusterSlots c ++ rest) s := by
  rw [walkDir, if_pos (show 2 ≤ c ∧ c ≤ 8191 from hc), fsReadCluster_ok hd hc]
  simp only [hrest]
  exact scanSlots_visit hskip c slotOffsets s hm

/-- **A LOOP OVER A CHAIN** visits its clusters, as many as the fuel allows. -/
theorem walkDir_chain (hskip : Skips visit dev.data) (hd : Healthy dev) :
    ∀ (l : List Nat) (c fuel : Nat) (s : σ), ChainOk fat (c :: l) →
      MarksOk dev.data (slotsOf ((c :: l).take fuel)) → walkDir visit finish dev fat fuel c s
        = visitSlots visit finish dev.data (slotsOf ((c :: l).take fuel)) s := by
  intro l c fuel
  induction fuel generalizing l c with
  | zero => exact fun _ _ _ => rfl
  | succ _ ih =>
    intro s h hm
    rw [take_succ_cons, slotsOf_cons] at hm ⊢
    refine walkDir_round hskip hd (h.data c (mem_cons_self ..)) hm.left (fun s => ?_) s
    cases l with
    | nil =>
      rw [h.get_last, take_nil]
      rfl
    | cons d l =>
      have hnext := endsChain_allocatable (h.tail d (mem_cons_self ..))
      rw [h.get_next, hnext]
      exact ih l d s h.rest hm.right

end Walk

/-! ## The search, the listing and the emptiness test -/

section Loops

theorem skips_find (name : Name83) : Skips (findVisit name) data := by
  intro p free free' h
  rw [findVisit] at h
  cases hs : slotAt (data p.1) p.2 with
  | unused =>
    refine ⟨by rw [slotOn, hs]; rfl, fun q hq => ?_⟩
    rw [hs] at h
    cases h
    cases hq' : slotAt (data q.1) q.2 with
    | unused => rw [findVisit, hq']; cases free <;> rfl
    | _ => rw [slotOn, hq'] at hq; cases hq
  | deleted => rw [hs] at h; cases h
  | entry e =>
    rw [hs] at h
    dsimp only at h
    split at h <;> cases h

/-- The search in a list of slots: the slot of the name, or the end with the first free slot. -/
theorem visit_find (dev : Device) (name : Name83) (ps : List (Nat × Nat)) :
    ∀ free : Option (Nat × Nat), visitSlots (findVisit name) (findFinish dev) data ps free
      = (ps.find? (fun p => (slotOn data p).holds name)).elim
          (findFinish dev (free <|> ps.find? (fun p => (slotOn data p).isFree)))
          (fun p => .ok ⟨p.1, p.2, true, data p.1⟩) := by
  induction ps with
  | nil =>
    intro free
    cases free <;> rfl
  | cons p ps ih =>
    intro free
    rw [visitSlots, findVisit, List.find?_cons, List.find?_cons]
    cases hs : slotAt (data p.1) p.2 with
    | unused | deleted =>
      simp only [slotOn, hs] at ih ⊢
      rw [ih]
      cases free <;> rfl
    | entry e =>
      have hon : slotOn data p = .entry e := hs
      by_cases hname : e.name = name
      · simp only [hon, Slot.holds, hname, if_true, decide_true, Option.elim]
      · simp only [hon, Slot.holds, Slot.isFree, hname, if_false, decide_false]
        exact ih free

/-- The text of a list of entries, behind a text that is there. -/
def listText (size : Nat) (out : List Byte) (entries : List DirEntry) :
    Except FsError (List Byte) :=
  entries.foldlM (fun out e => putChars size out (entryText e)) out

theorem skips_list (size : Nat) : Skips (listVisit size) data := by
  intro p out out' h
  rw [listVisit] at h
  split at h
  · cases h
  · cases h
  · cases hput : putChars size out (entryText ‹_›) <;> rw [hput] at h <;> cases h

/-- The listing stops at an unused slot. -/
theorem visit_list (size : Nat) (ps : List (Nat × Nat)) : ∀ out : List Byte, MarksOk data ps →
      visitSlots (listVisit size) .ok data ps out = listText size out (entriesIn data ps) := by
  induction ps with
  | nil => exact fun _ _ => rfl
  | cons p ps ih =>
    intro out hm
    obtain ⟨hhead, hm⟩ := pairwise_cons.mp hm
    rw [visitSlots, listVisit, entriesIn_cons, ← slotOn]
    cases hs : slotOn data p with
    | unused =>
      rw [entriesIn_unused (fun q hq => hhead q hq (by rw [hs]; rfl))]
      rfl
    | deleted => exact ih out hm
    | entry e =>
      show _ = putChars size out (entryText e) >>= _
      dsimp only
      cases putChars size out (entryText e) with
      | error => rfl
      | ok out' => exact ih out' hm

theorem skips_empty : Skips emptyVisit data := by
  intro p _ _ h
  rw [emptyVisit] at h
  split at h <;> cases h

theorem visit_empty (ps : List (Nat × Nat)) (hm : MarksOk data ps) :
    visitSlots emptyVisit (fun _ => .ok true) data ps ()
      = .ok (decide (entriesIn data ps = [])) := by
  induction ps with
  | nil => rfl
  | cons p ps ih =>
    obtain ⟨hhead, hm⟩ := pairwise_cons.mp hm
    rw [visitSlots, emptyVisit, entriesIn_cons, ← slotOn]
    cases hs : slotOn data p with
    | unused =>
      rw [entriesIn_unused (fun q hq => hhead q hq (by rw [hs]; rfl))]
      rfl
    | deleted => exact ih hm
    | entry => rfl

end Loops

/-! ## A directory and its entries -/

/-- The entries of a directory: those the loops see, under different names. -/
structure DirOk (data : Nat → Block) (chain : List Nat) (entries : List DirEntry) : Prop where
  entries_eq : dirEntries data chain = entries
  marks : MarksOk data (visibleSlots chain)
  names : (entries.map DirEntry.name).Nodup

section Dir

section

variable (hd : Healthy dev) (h : ChainOk dev.fat (c :: l))
include hd h

theorem find_eq (hm : MarksOk dev.data
    (visibleSlots (c :: l))) (name : Name83) : fsFindEntryInDirExt dev c name
      = ((visibleSlots (c :: l)).find? (fun p => (slotOn dev.data p).holds name)).elim
          (findFinish dev ((visibleSlots (c :: l)).find? (fun p => (slotOn dev.data p).isFree)))
          (fun p => .ok ⟨p.1, p.2, true, dev.data p.1⟩) := by
  rw [fsFindEntryInDirExt, fsLoadFat_ok hd]
  exact (walkDir_chain (skips_find name) hd l c 128 none h hm).trans (visit_find dev name _ none)

section

variable (hdir : DirOk dev.data (c :: l) entries)
include hdir

theorem find_found (he : e ∈ entries) : ∃ p ∈ visibleSlots (c :: l), slotOn dev.data p = .entry e
      ∧ fsFindEntryInDirExt dev c e.name = .ok ⟨p.1, p.2, true, dev.data p.1⟩ := by
  rw [find_eq hd h hdir.marks]
  have hmem : e ∈ entriesIn dev.data (visibleSlots (c :: l)) := by
    rw [← dirEntries, hdir.entries_eq]
    exact he
  cases hfind : (visibleSlots (c :: l)).find? (fun p => (slotOn dev.data p).holds e.name) with
  | none =>
    obtain ⟨q, hq, hqe⟩ := mem_entriesIn.mp hmem
    have hno := List.find?_eq_none.mp hfind q hq
    rw [hqe] at hno
    exact absurd (decide_eq_true rfl) hno
  | some p =>
    have hp := mem_of_find?_eq_some hfind
    have hholds := List.find?_some hfind
    -- the slot found holds the name, and names are different
    obtain ⟨e', hs, hname⟩ := Slot.holds_iff.mp hholds
    have hmem' : e' ∈ entries := by
      rw [← hdir.entries_eq]
      exact mem_entriesIn.mpr ⟨p, hp, hs⟩
    rw [inj_on_of_nodup_map hdir.names hmem' he hname] at hs
    exact ⟨p, hp, hs, rfl⟩

/-- The search for another name ends at the first free slot, or in a full directory. -/
theorem find_absent (hno : ∀ e ∈ entries, e.name ≠ name) :
    (∃ front p back, visibleSlots (c :: l) = front ++ p :: back
      ∧ (∀ q ∈ front, (slotOn dev.data q).isFree = false) ∧ (slotOn dev.data p).isFree
      ∧ fsFindEntryInDirExt dev c name = .ok ⟨p.1, p.2, false, dev.data p.1⟩) ∨
    ((∀ q ∈ visibleSlots (c :: l), (slotOn dev.data q).isFree = false)
      ∧ fsFindEntryInDirExt dev c name = .error .noSpace) := by
  have hfind : (visibleSlots (c :: l)).find? (fun p => (slotOn dev.data p).holds name) = none := by
    refine List.find?_eq_none.mpr (fun p hp hholds => ?_)
    obtain ⟨e, hs, hname⟩ := Slot.holds_iff.mp hholds
    refine hno e ?_ hname
    rw [← hdir.entries_eq]
    exact mem_entriesIn.mpr ⟨p, hp, hs⟩
  rw [find_eq hd h hdir.marks, hfind]
  cases hfree : (visibleSlots (c :: l)).find? (fun p => (slotOn dev.data p).isFree) with
  | none =>
    refine .inr ⟨fun q hq => ?_, rfl⟩
    exact Bool.eq_false_iff.mpr (List.find?_eq_none.mp hfree q hq)
  | some p =>
    obtain ⟨hisfree, front, back, hsplit, hfront⟩ := List.find?_eq_some_iff_append.mp hfree
    have hp := mem_of_find?_eq_some hfree
    have hcluster : DataCluster p.1 := h.data p.1 (mem_chain_of_visible hp)
    refine .inl ⟨front, p, back, hsplit, fun q hq => ?_, hisfree, ?_⟩
    · have hnot := hfront q hq
      rwa [Bool.not_eq_true'] at hnot
    · rw [Option.elim_none, findFinish, fsReadCluster_ok hd hcluster]

theorem list_eq (size : Nat) : fsListDirAt c size dev = listText size [] entries := by
  rw [fsListDirAt, fsLoadFat_ok hd, ← hdir.entries_eq]
  exact (walkDir_chain (skips_list size) hd l c 128 [] h hdir.marks).trans
    (visit_list size _ [] hdir.marks)

theorem empty_eq : fsDirectoryIsEmpty dev c = decide (entries = []) := by
  obtain ⟨_, _⟩ := h.data c (mem_cons_self ..)
  rw [fsDirectoryIsEmpty, if_neg (by omega), fsLoadFat_ok hd, ← hdir.entries_eq]
  dsimp only
  rw [walkDir_chain skips_empty hd l c 128 () h hdir.marks, ← visibleSlots,
    visit_empty _ hdir.marks]
  rfl

end

end

end Dir

/-! ## Changes of a directory -/

section Change

variable {data : Nat → Block} {chain : List Nat} {p : Nat × Nat}

/-- A change outside the visible clusters. -/
theorem DirOk.frame (h : DirOk data chain entries) (hchain : chain'.take 128 = chain.take 128)
    (hdata : ∀ c ∈ chain.take 128, data' c = data c) : DirOk data' chain' entries := by
  have hslots : visibleSlots chain' = visibleSlots chain := by
    rw [visibleSlots, visibleSlots, hchain]
  have hsame : ∀ p ∈ visibleSlots chain, slotOn data' p = slotOn data p := by
    intro p hp
    rw [slotOn, slotOn, hdata p.1 (mem_slotsOf.mp hp).1]
  refine ⟨?_, ?_, h.names⟩
  · rw [dirEntries, hslots, entriesIn_congr hsame]
    exact h.entries_eq
  · rw [hslots]
    exact h.marks.congr hsame

/-- The block of a slot's cluster changed in the bytes of the slot: no other slot changes. -/
theorem slotOn_other (hp : p ∈ slotsOf cs) (hq : q ∈ slotsOf cs) (hne : q ≠ p)
    (hclusters : ∀ c ∈ cs, c ≠ p.1 → data' c = data c)
    (hbytes : ∀ i, i < p.2 ∨ p.2 + 32 ≤ i → data' p.1 i = data p.1 i) :
    slotOn data' q = slotOn data q := by
  rw [slotOn, slotOn]
  by_cases hcluster : q.1 = p.1
  · obtain ⟨_, _, _⟩ := mem_slotOffsets.mp (mem_slotsOf.mp hp).2
    obtain ⟨_, _, _⟩ := mem_slotOffsets.mp (mem_slotsOf.mp hq).2
    have hoff : q.2 ≠ p.2 := fun heq => hne (Prod.ext hcluster heq)
    rw [hcluster]
    exact slotAt_congr (fun k hk => hbytes _ (by omega))
  · rw [hclusters q.1 (mem_slotsOf.mp hq).1 hcluster]

section

variable (h : DirOk data chain entries) (hsplit : visibleSlots chain = front ++ p :: back)
include h hsplit

theorem DirOk.around :
    entries = entriesIn data front ++ ((slotOn data p).toEntry.toList ++ entriesIn data back) := by
  rw [← h.entries_eq, dirEntries, hsplit, entriesIn_append, entriesIn_cons]

/-- **ONE SLOT WRITTEN**: the slot is not left unused, and the slots in front of it were not. -/
theorem DirOk.setSlot (hother : ∀ q ∈ front ++ back, slotOn data' q = slotOn data q)
    (hfront : ∀ q ∈ front, (slotOn data q).isUnused = false)
    (hnew : (slotOn data' p).isUnused = false) (hnames : ((entriesIn data front
      ++ ((slotOn data' p).toEntry.toList ++ entriesIn data back)).map DirEntry.name).Nodup) :
    DirOk data' chain
      (entriesIn data front ++ ((slotOn data' p).toEntry.toList ++ entriesIn data back)) := by
  have hsameF : ∀ q ∈ front, slotOn data' q = slotOn data q :=
    fun q hq => hother q (mem_append_left _ hq)
  have hsameB : ∀ q ∈ back, slotOn data' q = slotOn data q :=
    fun q hq => hother q (mem_append_right _ hq)
  have hm := h.marks
  rw [hsplit] at hm
  obtain ⟨hmF, hmB, _⟩ := pairwise_append.mp hm
  refine ⟨?_, ?_, hnames⟩
  · rw [dirEntries, hsplit, entriesIn_append, entriesIn_cons, entriesIn_congr hsameF,
      entriesIn_congr hsameB]
  · rw [hsplit]
    refine pairwise_append.mpr ⟨MarksOk.congr hmF hsameF, pairwise_cons.mpr
      ⟨fun q _ hun => ?_, MarksOk.congr (pairwise_cons.mp hmB).2 hsameB⟩,
      fun q hq r _ hun => ?_⟩
    · rw [hnew] at hun
      cases hun
    · rw [hsameF q hq, hfront q hq] at hun
      cases hun

/-- In front of a slot in use no slot is unused. -/
theorem DirOk.front_used (hp : (slotOn data p).isUnused = false) :
    ∀ q ∈ front, (slotOn data q).isUnused = false := by
  intro _ hq
  have hm := h.marks
  rw [hsplit] at hm
  refine Bool.eq_false_iff.mpr (fun hun => ?_)
  have hpun := hm.behind hq hun p (mem_cons_self ..)
  rw [hp] at hpun
  cases hpun

end

section

variable (hnd : chain.Nodup) (hsplit : visibleSlots chain = front ++ p :: back)
include hnd hsplit

/-- No slot occurs twice. -/
theorem visibleSlots_apart : ∀ q ∈ front ++ back, q ∈ visibleSlots chain ∧ q ≠ p := by
  have hnodup : (visibleSlots chain).Nodup := slotsOf_nodup (hnd.sublist (take_sublist ..))
  rw [hsplit] at hnodup ⊢
  rw [nodup_middle] at hnodup
  intro _ hq
  refine ⟨?_, fun heq => (nodup_cons.mp hnodup).1 (heq ▸ hq)⟩
  rcases mem_append.mp hq with hq | hq
  · exact mem_append_left _ hq
  · exact mem_append_right _ (mem_cons_of_mem p hq)

/-- The other slots of a directory, where the bytes of one slot change. -/
theorem slotOn_around (hclusters : ∀ c ∈ chain, c ≠ p.1 → data' c = data c)
    (hbytes : ∀ i, i < p.2 ∨ p.2 + 32 ≤ i → data' p.1 i = data p.1 i) :
    ∀ q ∈ front ++ back, slotOn data' q = slotOn data q := by
  intro q hq
  obtain ⟨hin, hne⟩ := visibleSlots_apart hnd hsplit q hq
  have hp : p ∈ visibleSlots chain := by
    rw [hsplit]
    exact mem_append_right _ (mem_cons_self ..)
  exact slotOn_other hp hin hne (fun c hc => hclusters c (mem_of_mem_take hc)) hbytes

end

/-- **THE SLOT OF AN ENTRY WRITTEN**, with an entry of the same name or none. -/
theorem DirOk.rewrite (h : DirOk data chain entries) (hnd : chain.Nodup) (data' : Nat → Block)
    (hp : p ∈ visibleSlots chain) (hslot : slotOn data p = .entry e)
    (hclusters : ∀ c ∈ chain, c ≠ p.1 → data' c = data c)
    (hbytes : ∀ i, i < p.2 ∨ p.2 + 32 ≤ i → data' p.1 i = data p.1 i)
    (hnew : (slotOn data' p).isUnused = false)
    (hname : ∀ e', slotOn data' p = .entry e' → e'.name = e.name) :
    ∃ entries', DirOk data' chain entries' ∧ ∀ x, x ∈ entries' ↔
      (x ∈ entries ∧ x.name ≠ e.name) ∨ slotOn data' p = .entry x := by
  obtain ⟨front, back, hsplit⟩ := append_of_mem hp
  have haround := h.around hsplit
  rw [hslot] at haround
  have hold : ((entriesIn data front ++ e :: entriesIn data back).map DirEntry.name).Nodup := by
    have hnames := h.names
    rw [haround] at hnames
    exact hnames
  -- the names beside the slot are other names
  have hothers : e.name ∉ (entriesIn data front ++ entriesIn data back).map DirEntry.name := by
    rw [map_append, map_cons, nodup_middle, ← map_append] at hold
    exact (nodup_cons.mp hold).1
  refine ⟨_, h.setSlot hsplit (slotOn_around hnd hsplit hclusters hbytes)
    (h.front_used hsplit (by rw [hslot]; rfl)) hnew ?_, fun x => ?_⟩
  · cases hs : (slotOn data' p).toEntry with
    | none =>
      refine hold.sublist (List.Sublist.map _ ?_)
      exact List.Sublist.append_left (sublist_cons_self ..) _
    | some e' =>
      rw [map_append] at hold
      show ((entriesIn data front ++ e' :: entriesIn data back).map DirEntry.name).Nodup
      rw [map_append, map_cons, hname e' (Slot.toEntry_eq_some.mp hs)]
      exact hold
  · have hmem : x ∈ entries ∧ x.name ≠ e.name
        ↔ x ∈ entriesIn data front ++ entriesIn data back := by
      rw [haround]
      constructor
      · rintro ⟨hx, hne⟩
        rcases mem_append.mp hx with hx | hx
        · exact mem_append_left _ hx
        · rcases mem_cons.mp hx with rfl | hx
          · exact absurd rfl hne
          · exact mem_append_right _ hx
      · intro hx
        refine ⟨?_, fun heq => hothers (heq ▸ mem_map_of_mem hx)⟩
        rcases mem_append.mp hx with hx | hx
        · exact mem_append_left _ hx
        · exact mem_append_right _ (mem_cons_of_mem e hx)
    rw [hmem, mem_append, mem_append, mem_append, Option.mem_toList, Slot.toEntry_eq_some]
    tauto

/-- The slots of a cluster whose first slot alone is used. -/
theorem clusterSlots_first (hrest : ∀ off, 32 ≤ off → slotAt (data c) off = .unused) :
    entriesIn data (clusterSlots c) = (slotOn data (c, 0)).toEntry.toList
      ∧ (((slotOn data (c, 0)).isUnused = false → MarksOk data (clusterSlots c))) := by
  have hslots : clusterSlots c = (c, 0) :: (clusterSlots c).tail := rfl
  have htail : ∀ q ∈ (clusterSlots c).tail, (slotOn data q).isUnused := by
    intro q hq
    have hmem : q.1 = c ∧ 32 ≤ q.2 := by
      obtain ⟨off, hoff, rfl⟩ := mem_map.mp hq
      have hall : ∀ off ∈ slotOffsets.tail, 32 ≤ off := by decide
      exact ⟨rfl, hall off hoff⟩
    rw [slotOn, hmem.1, hrest q.2 hmem.2]
    rfl
  refine ⟨?_, fun hused => ?_⟩
  · rw [hslots, entriesIn_cons, entriesIn_unused htail, append_nil]
  · rw [hslots]
    refine pairwise_cons.mpr ⟨fun q hq _ => htail q hq, ?_⟩
    exact pairwise_of_forall_mem_list (fun q _ r hr _ => htail r hr)

/-- **ONE CLUSTER MORE**, behind visible clusters without a free slot. -/
theorem DirOk.extend (h : DirOk data chain entries) (hlen : chain.length < 128)
    (hdata : ∀ d ∈ chain, data' d = data d)
    (hfull : ∀ q ∈ visibleSlots chain, (slotOn data q).isFree = false)
    (hfirst : (slotOn data' (c, 0)).isUnused = false)
    (hrest : ∀ off, 32 ≤ off → slotAt (data' c) off = .unused)
    (hnames : ((entries ++ (slotOn data' (c, 0)).toEntry.toList).map DirEntry.name).Nodup) :
    DirOk data' (chain ++ [c]) (entries ++ (slotOn data' (c, 0)).toEntry.toList) := by
  have htake : chain.take 128 = chain := take_of_length_le (by omega)
  have htake' : (chain ++ [c]).take 128 = chain ++ [c] :=
    take_of_length_le (by rw [length_append, length_singleton]; omega)
  have hslots : visibleSlots (chain ++ [c]) = visibleSlots chain ++ clusterSlots c := by
    rw [visibleSlots, visibleSlots, htake, htake', slotsOf_append]
    exact congrArg (slotsOf chain ++ ·) (append_nil _)
  have hsame : ∀ q ∈ visibleSlots chain, slotOn data' q = slotOn data q := by
    intro q hq
    rw [slotOn, slotOn, hdata q.1 (mem_chain_of_visible hq)]
  obtain ⟨hentries, hmarks⟩ := clusterSlots_first hrest
  refine ⟨?_, ?_, hnames⟩
  · rw [dirEntries, hslots, entriesIn_append, hentries, entriesIn_congr hsame, ← dirEntries,
      h.entries_eq]
  · rw [hslots]
    refine pairwise_append.mpr ⟨MarksOk.congr h.marks hsame, hmarks hfirst, fun q hq r _ hun => ?_⟩
    rw [hsame q hq, Slot.isUnused_of_not_free (hfull q hq)] at hun
    cases hun

/-- A cleared cluster is a directory without entries. -/
theorem DirOk.cleared (h : data c = zeroBlock) : DirOk data [c] [] := by
  have hun : ∀ q ∈ visibleSlots [c], (slotOn data q).isUnused := by
    intro q hq
    have hc : q.1 = c := mem_singleton.mp (mem_chain_of_visible hq)
    rw [slotOn, hc, h]
    rfl
  exact ⟨entriesIn_unused hun, pairwise_of_forall_mem_list (fun q _ r hr _ => hun r hr), nodup_nil⟩

end Change

end Fs
