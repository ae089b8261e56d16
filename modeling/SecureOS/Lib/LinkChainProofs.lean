import Mathlib.Data.List.Nodup

/-! # Chains of links in a table

A table gives every cell the cell it links to, or none at the end of a chain.
A chain is the list of the cells on the way, from a first cell to an end. -/

namespace LinkChain

open List

variable {α : Type} {next next' : α → Option α} {a b : α} {l m : List α}

/-- Each cell of the list links to the one behind it, and the last cell to none. -/
def Linked (next : α → Option α) : List α → Prop
  | [] => False
  | [a] => next a = none
  | a :: b :: l => next a = some b ∧ Linked next (b :: l)

theorem linked_singleton : Linked next [a] ↔ next a = none := Iff.rfl

theorem Linked.ne_nil (h : Linked next l) : l ≠ [] := by
  rintro rfl
  exact h

/-- The link of the first cell leads to the second one, if there is one. -/
theorem Linked.next_head (h : Linked next (a :: l)) : next a = l.head? := by
  cases l with
  | nil => exact h
  | cons => exact h.1

theorem Linked.tail (h : Linked next (a :: l)) (hne : l ≠ []) : Linked next l := by
  cases l with
  | nil => exact absurd rfl hne
  | cons => exact h.2

theorem Linked.last : ∀ {l : List α}, Linked next l → ∀ {a}, l.getLast? = some a →
    next a = none := by
  intro l
  induction l with
  | nil => exact fun h => h.elim
  | cons _ l ih =>
    intro h _ hlast
    cases l with
    | nil =>
      cases hlast
      exact h
    | cons => exact ih h.2 hlast

theorem Linked.unique : ∀ {l m : List α} {a : α}, Linked next (a :: l) → Linked next (a :: m) →
    l = m := by
  intro l
  induction l with
  | nil =>
    intro m _ hl hm
    have hend := hl.next_head.symm.trans hm.next_head
    cases m with
    | nil => rfl
    | cons => cases hend
  | cons _ _ ih =>
    intro m _ hl hm
    have hlink := hl.next_head.symm.trans hm.next_head
    cases m with
    | nil => cases hlink
    | cons =>
      cases hlink
      rw [ih hl.2 hm.2]

theorem Linked.suffix : ∀ {l m : List α}, Linked next (l ++ m) → m ≠ [] → Linked next m := by
  intro l
  induction l with
  | nil => exact fun h _ => h
  | cons _ l ih =>
    intro _ h hne
    exact ih (h.tail (append_ne_nil_of_right_ne_nil l hne)) hne

theorem Linked.head_notMem (h : Linked next (a :: l)) : a ∉ l := by
  intro hmem
  obtain ⟨_, back, rfl⟩ := append_of_mem hmem
  -- from both places where the cell stands the same chain goes on
  have hback : Linked next (a :: back) := (h.tail (by simp)).suffix (cons_ne_nil a back)
  have hlen := congrArg List.length (h.unique hback)
  rw [length_append, length_cons] at hlen
  omega

theorem Linked.nodup : ∀ {l : List α}, Linked next l → l.Nodup := by
  intro l
  induction l with
  | nil => exact fun _ => nodup_nil
  | cons _ l ih =>
    intro h
    refine nodup_cons.mpr ⟨h.head_notMem, ?_⟩
    cases l with
    | nil => exact nodup_nil
    | cons => exact ih h.2

/-- The chain in front of a cell does not contain it. -/
theorem Linked.notMem_front (h : Linked next (l ++ a :: m)) : a ∉ l := by
  intro hmem
  exact (nodup_append.mp h.nodup).2.2 a hmem a (mem_cons_self ..) rfl

/-- Every cell of a chain but the last has a link into the chain. -/
theorem Linked.next_mem : ∀ {l : List α}, Linked next l → ∀ {a b : α}, a ∈ l → next a = some b →
    b ∈ l := by
  intro l
  induction l with
  | nil => exact fun h => absurd rfl h.ne_nil
  | cons _ l ih =>
    intro h _ _ ha hab
    cases l with
    | nil =>
      rw [mem_singleton.mp ha, linked_singleton.mp h] at hab
      cases hab
    | cons =>
      rcases mem_cons.mp ha with rfl | ha
      · rw [h.1] at hab
        cases hab
        exact mem_cons_of_mem _ (mem_cons_self ..)
      · exact mem_cons_of_mem _ (ih h.2 ha hab)

/-- **FRAME**: a change outside a chain leaves the chain. -/
theorem Linked.frame : ∀ {l : List α}, Linked next l → (∀ a ∈ l, next' a = next a) →
    Linked next' l := by
  intro l
  induction l with
  | nil => exact fun h _ => h
  | cons a l ih =>
    intro h hsame
    have hfst : next' a = next a := hsame a (mem_cons_self ..)
    cases l with
    | nil => exact hfst.trans h
    | cons => exact ⟨hfst.trans h.1, ih h.2 (fun c hc => hsame c (mem_cons_of_mem _ hc))⟩

/-- A front that links to the first cell of a chain. -/
theorem Linked.prepend : ∀ {l : List α}, Linked next (l ++ a :: m) → (∀ c ∈ l, next' c = next c) →
    ∀ {m' : List α}, Linked next' (a :: m') → Linked next' (l ++ a :: m') := by
  intro l
  induction l with
  | nil => exact fun _ _ _ h => h
  | cons c l ih =>
    intro h hsame _ hm
    have hfst : next' c = next c := hsame c (mem_cons_self ..)
    have hrest := fun d hd => hsame d (mem_cons_of_mem c hd)
    cases l with
    | nil => exact ⟨hfst.trans h.1, hm⟩
    | cons => exact ⟨hfst.trans h.1, ih h.2 hrest hm⟩

end LinkChain
