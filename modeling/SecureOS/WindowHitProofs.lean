import SecureOS.CompositorProofs
import Mathlib.Data.List.MinMax
import Mathlib.Data.List.Pairwise

/-! # Which window a click goes to

`win_hit_test` searches the table for the greatest `z_order` and keeps the first window that has
it; the sort of the compositor is stable, so of windows that share a `z_order` the last one of
the table is drawn on top.  The two agree exactly where the topmost `z_order` is taken once and
has not wrapped to a negative number. -/

namespace Compositor

open BubbleSort MachineRun List

variable {t : Table} {p : Point}

/-- An active window whose rectangle holds the point. -/
def Covers (t : Table) (p : Point) (i : Fin 4) : Prop := (t i).active = true ∧ (t i).inFrame p

instance : DecidablePred (Covers t p) := fun _ => inferInstanceAs (Decidable (_ ∧ _))

/-- The covering windows in the order they are drawn, and the one that is drawn last. -/
def drawnAt (t : Table) (p : Point) : List (Fin 4) := (drawOrder t).filter (Covers t p)

/-- The window that shows at a point. -/
def lastDrawn (t : Table) (p : Point) : Option (Fin 4) := (drawnAt t p).getLast?

/-- The height of a window. -/
abbrev height (t : Table) (i : Fin 4) : Int := (t i).zOrder.toInt

/-- A covering window that no covering window is above. -/
def Topmost (t : Table) (p : Point) (i : Fin 4) : Prop :=
  Covers t p i ∧ ∀ j, Covers t p j → height t j ≤ height t i

/-- The search looks at a covering window unless its height has wrapped. -/
def Sought (t : Table) (p : Point) (i : Fin 4) : Prop := Covers t p i ∧ 0 ≤ height t i

instance : DecidablePred (Sought t p) := fun _ => inferInstanceAs (Decidable (_ ∧ _))

/-- The first of the highest windows of `l` that the search looks at. -/
def highest (t : Table) (p : Point) (l : List (Fin 4)) : Option (Fin 4) :=
  argmax (fun i => (height t i).toNat) (l.filter (Sought t p))

theorem sought_highest (h : highest t p l = some c) : Sought t p c :=
  of_decide_eq_true (mem_filter.mp (argmax_mem h)).2

/-- `hit` is that window, and `best_z` its height. -/
theorem run_hitStep (l : List (Fin 4)) : run (hitStep t p) (-1, none) l =
    ((highest t p l).elim (-1) (height t), highest t p l) := by
  induction l using List.reverseRecOn with
  | nil => rfl
  | append_singleton l j ih =>
    rw [run_append, ih, run_cons, run_nil, hitStep]
    show (if _ ∧ _ ∧ height t j > _ then (height t j, some j) else _) = _
    by_cases hj : Sought t p j
    · have hlast : highest t p (l ++ [j]) = Option.casesOn (highest t p l) (some j)
          fun c => if (height t c).toNat < (height t j).toNat then some j else some c := by
        simp [highest, hj, argmax_concat]
      rw [hlast]
      cases hh : highest t p l with
      | none => exact if_pos ⟨hj.1.1, hj.1.2, Int.lt_of_lt_of_le (Int.negSucc_lt_zero 0) hj.2⟩
      | some c =>
        have hc := (sought_highest hh).2
        by_cases hlt : height t c < height t j
        · have hnat : (height t c).toNat < (height t j).toNat := by omega
          simp only [if_pos hnat]
          exact if_pos ⟨hj.1.1, hj.1.2, hlt⟩
        · have hnat : ¬ (height t c).toNat < (height t j).toNat := by omega
          simp only [if_neg hnat]
          exact if_neg fun h => hlt h.2.2
    · have hlast : highest t p (l ++ [j]) = highest t p l := by simp [highest, hj]
      -- whatever is the best so far, it is at least -1
      have hbest : -1 ≤ (highest t p l).elim (-1) (height t) := by
        cases hh : highest t p l with
        | none => exact Int.le_refl _
        | some c => exact Int.le_trans (by decide) (sought_highest hh).2
      rw [hlast]
      exact if_neg fun h => hj ⟨⟨h.1, h.2.1⟩, by omega⟩

theorem winHitTest_snd : (winHitTest t p).2 = highest t p (finRange 4) := by
  unfold winHitTest
  rw [run_hitStep]
  cases highest t p (finRange 4) <;> rfl

theorem winHitTest_none : (winHitTest t p).2 = none ↔ ∀ i, ¬ Sought t p i := by
  rw [winHitTest_snd, highest, argmax_eq_none, filter_eq_nil_iff]
  simp

/-- The search returns the first of the topmost windows, and its height has not wrapped. -/
theorem winHitTest_first (h : (winHitTest t p).2 = some i) :
    Topmost t p i ∧ 0 ≤ height t i ∧ ∀ j, Topmost t p j → i ≤ j := by
  rw [winHitTest_snd, highest, argmax_eq_some_iff] at h
  have hmem : ∀ j, j ∈ (finRange 4).filter (Sought t p) ↔ Sought t p j := by simp
  obtain ⟨hi, htop, hfirst⟩ := h
  obtain ⟨hcov, hpos⟩ := (hmem i).mp hi
  have hle : ∀ j, Covers t p j → height t j ≤ height t i := by
    intro j hj
    by_cases h0 : 0 ≤ height t j
    · have hnat : (height t j).toNat ≤ (height t i).toNat := htop j ((hmem j).mpr ⟨hj, h0⟩)
      omega
    · omega
  refine ⟨⟨hcov, hle⟩, hpos, fun j hj => ?_⟩
  have hj' := (hmem j).mpr ⟨hj.1, Int.le_trans hpos (hj.2 i hcov)⟩
  have hidx := ((pairwise_le_finRange 4).filter (Sought t p)).rel_get_of_le
    (a := ⟨_, idxOf_lt_length_iff.mpr hi⟩) (b := ⟨_, idxOf_lt_length_iff.mpr hj'⟩)
    (hfirst j hj' (Int.toNat_le_toNat (hj.2 i hcov)))
  rwa [idxOf_get, idxOf_get] at hidx

theorem mem_drawnAt : i ∈ drawnAt t p ↔ Covers t p i := by
  unfold drawnAt
  rw [mem_filter, mem_drawOrder, decide_eq_true_iff]
  exact and_iff_right_of_imp And.left

/-- The windows of one height are drawn in the order of the table. -/
theorem drawnAt_filter (z : Int) :
    ((drawnAt t p).filter (fun i => height t i = z)).Pairwise (· < ·) := by
  unfold drawnAt drawOrder
  rw [filter_comm, bubbleSort_filter (height t)]
  exact (((pairwise_lt_finRange 4).filter _).filter _).filter _

/-- Of the topmost windows the last is drawn last. -/
theorem lastDrawn_last (h : lastDrawn t p = some m) :
    Topmost t p m ∧ ∀ j, Topmost t p j → j ≤ m := by
  obtain ⟨_, hdrawn⟩ := getLast?_eq_some_iff.mp h
  have hm : Covers t p m := mem_drawnAt.mp (hdrawn ▸ mem_append_right _ (mem_singleton_self m))
  have htop : ∀ j, Covers t p j → height t j ≤ height t m := by
    intro j hj
    have hsorted : (drawnAt t p).Pairwise _ := (drawOrder_sorted t).filter _
    rw [hdrawn] at hsorted
    have hmem := mem_drawnAt.mpr hj
    rw [hdrawn] at hmem
    rcases mem_append.mp hmem with hmem | hmem
    · exact (pairwise_append.mp hsorted).2.2 j hmem m (mem_singleton_self m)
    · rw [mem_singleton.mp hmem]
  refine ⟨⟨hm, htop⟩, fun j hj => ?_⟩
  have hz : height t j = height t m := le_antisymm (htop j hj.1) (hj.2 m hm)
  have hsorted := drawnAt_filter (t := t) (p := p) (height t m)
  have hmem : j ∈ (drawnAt t p).filter (fun i => height t i = height t m) :=
    mem_filter.mpr ⟨mem_drawnAt.mpr hj.1, decide_eq_true hz⟩
  rw [hdrawn, filter_append] at hsorted hmem
  rcases mem_append.mp hmem with hmem | hmem
  · have hself : m ∈ [m].filter (fun i => height t i = height t m) :=
      mem_filter.mpr ⟨mem_singleton_self m, decide_eq_true rfl⟩
    exact ((pairwise_append.mp hsorted).2.2 j hmem m hself).le
  · exact (mem_singleton.mp (mem_filter.mp hmem).1).le

/-- Some window is drawn last where one covers the point. -/
theorem lastDrawn_isSome (h : Covers t p i) : ∃ m, lastDrawn t p = some m := by
  cases hlast : lastDrawn t p with
  | none =>
    have hmem := mem_drawnAt.mpr h
    rw [getLast?_eq_none_iff.mp hlast] at hmem
    exact absurd hmem not_mem_nil
  | some m => exact ⟨m, rfl⟩

/-- No window is hit exactly where the topmost ones, if any, have wrapped. -/
theorem winHitTest_none_iff (t : Table) (p : Point) :
    ((winHitTest t p).2 = none ↔ ∀ i, ¬ Covers t p i) ↔ ∀ i, Topmost t p i → 0 ≤ height t i := by
  rw [winHitTest_none]
  constructor
  · intro h i hi
    by_contra hneg
    refine h.mp (fun j hj => ?_) i hi.1
    exact hneg (Int.le_trans hj.2 (hi.2 j hj.1))
  · refine fun h => ⟨fun hnone i hi => ?_, fun hnone i hi => hnone i hi.1⟩
    obtain ⟨m, hm⟩ := lastDrawn_isSome hi
    have hm := (lastDrawn_last hm).1
    exact hnone m ⟨hm.1, h m hm⟩

/-- The click goes to the window on top exactly where only one window is topmost, and its height
    has not wrapped. -/
theorem winHitTest_eq_lastDrawn (t : Table) (p : Point) : (winHitTest t p).2 = lastDrawn t p ↔
    ∀ i j, Topmost t p i → Topmost t p j → 0 ≤ height t i ∧ i = j := by
  cases hhit : (winHitTest t p).2 with
  | none =>
    have hnone := winHitTest_none.mp hhit
    constructor
    · intro hlast i _ hi
      obtain ⟨m, hm⟩ := lastDrawn_isSome hi.1
      cases hlast.trans hm
    · intro h
      cases hlast : lastDrawn t p with
      | none => rfl
      | some m =>
        have hm := (lastDrawn_last hlast).1
        exact absurd ⟨hm.1, (h m m hm hm).1⟩ (hnone m)
  | some i =>
    obtain ⟨hi, hpos, hfirst⟩ := winHitTest_first hhit
    obtain ⟨m, hlast⟩ := lastDrawn_isSome hi.1
    have hm := lastDrawn_last hlast
    rw [hlast, Option.some_inj]
    constructor
    · rintro rfl a b ha hb
      have ha' := (hm.2 a ha).antisymm (hfirst a ha)
      exact ⟨ha' ▸ hpos, ha'.trans ((hfirst b hb).antisymm (hm.2 b hb))⟩
    · exact fun h => (h i m hi hm.1).2

/-- In every state of the program and at every point: that no window is hit means that none covers
    the point exactly when the height of the topmost windows has not wrapped, and the window hit is
    the one drawn last exactly when moreover only one window is topmost. -/
theorem hit_is_last_drawn_iff (ops : List Op) (p : Point) :
    let t := (run step start ops).table
    (((winHitTest t p).2 = none ↔ ∀ i, ¬ Covers t p i)
        ↔ ∀ i, Topmost t p i → 0 ≤ height t i)
      ∧ ((winHitTest t p).2 = lastDrawn t p
        ↔ ∀ i j, Topmost t p i → Topmost t p j → 0 ≤ height t i ∧ i = j) :=
  ⟨winHitTest_none_iff _ p, winHitTest_eq_lastDrawn _ p⟩

/-- Two windows, the first gets the focus and with it the height 2, which the third is created
    with. -/
def tiedOps : List Op :=
  [.create 0 0 [] 0 0 0, .create 0 0 [] 1 0 0, .focus 0, .create 0 0 [] 2 0 0]

theorem tied_hit_below :
    let t := (run step start tiedOps).table
    (winHitTest t (50, 50)).2 = some 0 ∧ lastDrawn t (50, 50) = some 2 := by
  decide

end Compositor
