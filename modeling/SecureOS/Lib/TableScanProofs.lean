import Mathlib.Data.Fintype.Card

/-! # Loops over a fixed table

A table of `n` rows is a function `Fin n → R`.  Three loops over it recur: the first row that
meets a test (`Fin.find?`), a pass that rewrites every row meeting a test, and a pass that
counts the rows meeting a test. -/

namespace TableScan

open List

variable {n : Nat} {R : Type}

/-- Rewrite one row if it meets the test. -/
def rewriteRow (p : Fin n → R → Bool) (f : R → R) (t : Fin n → R) (i : Fin n) : Fin n → R :=
  if p i (t i) then Function.update t i (f (t i)) else t

section

variable (p : Fin n → R → Bool) (f : R → R)

theorem rewriteRow_self (t : Fin n → R)
    (i : Fin n) : rewriteRow p f t i i = if p i (t i) then f (t i) else t i := by
  cases h : p i (t i) <;> simp [rewriteRow, h]

theorem rewriteRow_of_ne (t : Fin n → R) (hij : j ≠ i) : rewriteRow p f t i j = t j := by
  cases h : p i (t i) with
  | true => simp [rewriteRow, h, Function.update_of_ne hij]
  | false => simp [rewriteRow, h]

/-- A pass over distinct rows rewrites each of them on its own old value. -/
theorem foldl_rewriteRow_list : ∀ (l : List (Fin n)), l.Nodup → ∀ (t : Fin n → R) (j : Fin n),
      l.foldl (rewriteRow p f) t j = if j ∈ l ∧ p j (t j) then f (t j) else t j := by
  intro l
  induction l with
  | nil => intro _ t j; simp
  | cons i _ ih =>
    intro hnd t j
    obtain ⟨hi, hl⟩ := nodup_cons.mp hnd
    rw [foldl_cons, ih hl]
    by_cases hji : j = i
    · subst hji
      -- the row is not visited again
      rw [if_neg (fun h => hi h.1), rewriteRow_self]
      simp
    · rw [rewriteRow_of_ne p f t hji]
      simp [hji]

/-- **POINTWISE PASS**: the full pass rewrites exactly the rows that met the test. -/
theorem foldl_rewriteRow (t : Fin n → R) : (List.finRange n).foldl (rewriteRow p f) t
      = fun i => if p i (t i) then f (t i) else t i := by
  funext j
  rw [foldl_rewriteRow_list p f _ (nodup_finRange n)]
  simp

end

/-- **COUNTING PASS**: the counter ends at the number of rows that met the test. -/
theorem foldl_count (p : Fin n → Bool) :
    (List.finRange n).foldl (fun k i => if p i then k + 1 else k) 0
      = (Finset.univ.filter (fun i => p i = true)).card := by
  have hlist : ∀ (l : List (Fin n)) (k : Nat),
      l.foldl (fun k i => if p i then k + 1 else k) k = k + l.countP p := by
    intro l
    induction l with
    | nil => intro k; simp
    | cons i _ ih =>
      intro _
      rw [foldl_cons, ih]
      cases h : p i with
      | true => simp [h]; omega
      | false => simp [h]
  rw [hlist, countP_eq_length_filter]
  have hnd : ((List.finRange n).filter p).Nodup := (nodup_finRange n).filter _
  rw [← toFinset_card_of_nodup hnd]
  simp

end TableScan
