import Mathlib.Data.List.Sort

/-! # Bubble sort

The two nested loops over adjacent elements, each pass one comparison shorter than the
one before. -/

namespace BubbleSort

open List

variable {α β : Type} [LinearOrder β] (key : α → β)

/-- The inner loop, with the number of comparisons it makes. -/
def bubblePass : Nat → List α → List α
  | 0, l => l
  | _ + 1, [] => []
  | _ + 1, [a] => [a]
  | n + 1, a :: b :: l =>
    if key b < key a then b :: bubblePass n (a :: l) else a :: bubblePass n (b :: l)

/-- The passes with at most `n` comparisons. -/
def bubbleFrom : Nat → List α → List α
  | 0, l => l
  | n + 1, l => bubbleFrom n (bubblePass key (n + 1) l)

/-- All passes over a list. -/
def bubbleSort (l : List α) : List α := bubbleFrom key (l.length - 1) l

theorem bubblePass_perm (n : Nat) (l : List α) : (bubblePass key n l).Perm l := by
  fun_induction bubblePass key n l with
  | case4 _ a b l _ ih => exact (ih.cons b).trans (List.Perm.swap a b l)
  | case5 _ a _ _ _ ih => exact ih.cons a
  | _ => exact List.Perm.refl _

theorem bubbleFrom_perm (n : Nat) (l : List α) : (bubbleFrom key n l).Perm l := by
  induction n generalizing l with
  | zero => exact List.Perm.refl l
  | succ n ih => exact (ih _).trans (bubblePass_perm key (n + 1) l)

theorem bubbleSort_perm (l : List α) : (bubbleSort key l).Perm l := bubbleFrom_perm key _ l

/-- A pass over the first elements leaves the others alone. -/
theorem bubblePass_append (front tail : List α) (n : Nat) (h : front.length = n + 1) :
    bubblePass key n (front ++ tail) = bubblePass key n front ++ tail := by
  fun_induction bubblePass key n front with
  | case1 => rfl
  | case2 | case3 => cases h
  | case4 _ _ _ _ hlt ih =>
    rw [cons_append, cons_append, bubblePass, if_pos hlt, cons_append, ← ih (Nat.succ.inj h)]
    rfl
  | case5 _ _ _ _ hle ih =>
    rw [cons_append, cons_append, bubblePass, if_neg hle, cons_append, ← ih (Nat.succ.inj h)]
    rfl

/-- What ends a pass is at least as great as all in it, if it is so of what stands before it. -/
theorem key_le_last (heq : bubblePass key n l = front ++ [m]) (hmax : ∀ a ∈ front, key a ≤ key m)
    (ha : a ∈ l) : key a ≤ key m := by
  have hmem : a ∈ front ++ [m] := heq ▸ (bubblePass_perm key n l).mem_iff.mpr ha
  rcases mem_append.mp hmem with hf | hm
  · exact hmax a hf
  · rw [mem_singleton.mp hm]

/-- A pass over a whole list leaves a greatest element at the end. -/
theorem bubblePass_max (l : List α) (n : Nat) (h : l.length = n + 1) :
    ∃ front m, bubblePass key n l = front ++ [m] ∧ ∀ a ∈ front, key a ≤ key m := by
  fun_induction bubblePass key n l with
  | case1 =>
    obtain ⟨m, rfl⟩ := length_eq_one_iff.mp h
    exact ⟨[], m, rfl, fun a ha => absurd ha not_mem_nil⟩
  | case2 | case3 => cases h
  | case4 _ a b _ hlt ih =>
    obtain ⟨front, m, heq, hmax⟩ := ih (Nat.succ.inj h)
    refine ⟨b :: front, m, by rw [heq]; rfl, forall_mem_cons.mpr ⟨?_, hmax⟩⟩
    exact le_trans (le_of_lt hlt) (key_le_last key heq hmax mem_cons_self)
  | case5 _ a b _ hle ih =>
    obtain ⟨front, m, heq, hmax⟩ := ih (Nat.succ.inj h)
    refine ⟨a :: front, m, by rw [heq]; rfl, forall_mem_cons.mpr ⟨?_, hmax⟩⟩
    exact le_trans (le_of_not_gt hle) (key_le_last key heq hmax mem_cons_self)

/-- The passes over the first `n + 1` elements sort a list whose others are sorted and not
    smaller. -/
theorem bubbleFrom_sorted (front tail : List α) (n : Nat) (hlen : front.length = n + 1)
    (htail : tail.Pairwise (fun a b => key a ≤ key b))
    (hle : ∀ a ∈ front, ∀ b ∈ tail, key a ≤ key b) :
    (bubbleFrom key n (front ++ tail)).Pairwise (fun a b => key a ≤ key b) := by
  induction n generalizing front tail with
  | zero =>
    obtain ⟨a, rfl⟩ := length_eq_one_iff.mp hlen
    exact pairwise_cons.mpr ⟨fun b hb => hle a mem_cons_self b hb, htail⟩
  | succ n ih =>
    unfold bubbleFrom
    rw [bubblePass_append key front tail (n + 1) hlen]
    obtain ⟨front', m, heq, hmax⟩ := bubblePass_max key front (n + 1) hlen
    have hperm := bubblePass_perm key (n + 1) front
    rw [heq] at hperm ⊢
    rw [append_assoc]
    have hmem : ∀ a ∈ front' ++ [m], a ∈ front := fun a ha => hperm.mem_iff.mp ha
    refine ih front' (m :: tail) ?_ ?_ ?_
    · have hl := hperm.length_eq
      rw [length_append, length_singleton] at hl
      omega
    · refine pairwise_cons.mpr ⟨fun b hb => ?_, htail⟩
      exact hle m (hmem m (mem_append_right _ mem_cons_self)) b hb
    · intro a ha b hb
      rcases mem_cons.mp hb with rfl | hb
      · exact hmax a ha
      · exact hle a (hmem a (mem_append_left _ ha)) b hb

theorem bubbleSort_sorted (l : List α) :
    (bubbleSort key l).Pairwise (fun a b => key a ≤ key b) := by
  cases l with
  | nil => exact List.Pairwise.nil
  | cons a l =>
    have h := bubbleFrom_sorted key (a :: l) [] l.length rfl List.Pairwise.nil
      (fun _ _ b hb => absurd hb not_mem_nil)
    rwa [append_nil] at h

/-- The elements of one key stay in their order: only a smaller key moves to the front. -/
theorem bubblePass_filter (k : β) (n : Nat) (l : List α) :
    (bubblePass key n l).filter (key · = k) = l.filter (key · = k) := by
  fun_induction bubblePass key n l with
  | case4 _ a b l hlt ih =>
    rw [filter_cons, ih]
    by_cases hb : key b = k
    · have ha : key a ≠ k := fun ha => absurd hlt (by rw [hb, ha]; exact lt_irrefl k)
      simp [filter_cons, ha]
    · simp [filter_cons, hb]
  | case5 _ a _ _ _ ih => rw [filter_cons, ih, filter_cons (x := a)]
  | _ => rfl

theorem bubbleSort_filter (k : β) (l : List α) :
    (bubbleSort key l).filter (key · = k) = l.filter (key · = k) := by
  unfold bubbleSort
  generalize l.length - 1 = n
  induction n generalizing l with
  | zero => rfl
  | succ n ih => exact (ih _).trans (bubblePass_filter key k (n + 1) l)

end BubbleSort
