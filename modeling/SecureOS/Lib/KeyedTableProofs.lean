import Mathlib.Data.Fin.Tuple.Basic

/-! # Tables searched by key

A fixed table of rows, each free or in use under a key.  A search takes the
first row with the key; a write puts a row under a key that the slot had
already, or that no row has into a free slot. -/

namespace KeyedTable

open Function Option

variable {n : Nat} {R K : Type} {key : R → Option K} {t : Fin n → R}

/-- No two rows have one key. -/
def Distinct (key : R → Option K) (t : Fin n → R) : Prop :=
  ∀ i j k, key (t i) = some k → key (t j) = some k → i = j

variable [DecidableEq K]

/-- The slot of the first row with the key. -/
def find (key : R → Option K) (t : Fin n → R) (k : K) : Option (Fin n) :=
  Fin.find? (fun i => decide (key (t i) = some k))

/-- The first row with the key. -/
def rowOf (key : R → Option K) (t : Fin n → R) (k : K) : Option R := (find key t k).map t

theorem find_eq_none_iff (k : K) : find key t k = none ↔ ∀ i, key (t i) ≠ some k := by
  rw [find, Fin.find?_eq_none_iff]
  exact forall_congr' fun i => decide_eq_false_iff_not

theorem key_of_find (h : find key t k = some i) : key (t i) = some k :=
  of_decide_eq_true (Fin.find?_eq_some_iff.mp h).1

theorem rowOf_eq_none_iff (k : K) : rowOf key t k = none ↔ ∀ i, key (t i) ≠ some k := by
  rw [rowOf, map_eq_none_iff, find_eq_none_iff]

/-- A search by any test that recognises the key. -/
theorem find?_eq_find {p : R → Bool} {k : K} (h : ∀ r, p r ↔ key r = some k) :
    Fin.find? (fun i => p (t i)) = find key t k := by
  congr 1
  funext i
  rw [Bool.eq_iff_iff, decide_eq_true_iff, h]

variable {k : K} {i : Fin n} {r : R}

/-- Row `r` with key `k` goes into slot `i`: the first that has the key, or a free one when
    none has. -/
structure Puts (key : R → Option K) (t : Fin n → R) (i : Fin n) (r : R) (k : K) : Prop where
  row : key r = some k
  slot : key (t i) = some k ∨ (key (t i) = none ∧ ∀ j, key (t j) ≠ some k)
  before : ∀ j, j < i → key (t j) ≠ some k

/-- A row is replaced under its key. -/
theorem puts_found (hi : find key t k = some i) (hr : key r = some k) : Puts key t i r k where
  row := hr
  slot := Or.inl (key_of_find hi)
  before j hj := of_decide_eq_false ((Fin.find?_eq_some_iff.mp hi).2 j hj)

/-- A row goes into a free slot under a new key. -/
theorem puts_free (hnone : find key t k = none) (hi : key (t i) = none) (hr : key r = some k) :
    Puts key t i r k where
  row := hr
  slot := Or.inr ⟨hi, (find_eq_none_iff k).mp hnone⟩
  before j _ := (find_eq_none_iff k).mp hnone j

/-- The keys after a write are the old ones and the new one. -/
theorem Puts.key_cases (h : Puts key t i r k)
    (hj : key (update t i r j) = some k') : (j = i ∧ k' = k) ∨ (j ≠ i ∧ key (t j) = some k') := by
  by_cases hji : j = i
  · subst hji
    rw [update_self, h.row] at hj
    exact Or.inl ⟨rfl, (some.inj hj).symm⟩
  · rw [update_of_ne hji] at hj
    exact Or.inr ⟨hji, hj⟩

theorem Puts.distinct (h : Puts key t i r k) (hd : Distinct key t) :
    Distinct key (update t i r) := by
  have honly : ∀ j, key (t j) = some k → j = i := fun j hj =>
    h.slot.elim (hd j i k hj) fun hfree => absurd hj (hfree.2 j)
  intro a b k' ha hb
  rcases h.key_cases ha with ⟨rfl, rfl⟩ | ⟨-, ha'⟩ <;>
    rcases h.key_cases hb with ⟨rfl, hk⟩ | ⟨-, hb'⟩
  · rfl
  · exact (honly b hb').symm
  · exact honly a (hk ▸ ha')
  · exact hd a b k' ha' hb'

/-- **A WRITE** is found under its key, and every other key finds what it found. -/
theorem rowOf_put (h : Puts key t i r k) (k' : K) :
    rowOf key (update t i r) k' = if k' = k then some r else rowOf key t k' := by
  by_cases hk : k' = k
  · subst hk
    have hfind : find key (update t i r) k' = some i := by
      rw [find, Fin.find?_eq_some_iff]
      refine ⟨decide_eq_true ?_, fun j hj => decide_eq_false ?_⟩
      · rw [update_self]
        exact h.row
      · rw [update_of_ne (Fin.ne_of_lt hj)]
        exact h.before j hj
    rw [if_pos rfl, rowOf, hfind, map_some, update_self]
  · -- the slot has the key `k'` neither before nor after
    have hslot : key (t i) ≠ some k' := by
      intro hk'
      rcases h.slot with hsome | ⟨hnone, -⟩
      · rw [hsome] at hk'
        exact hk (some.inj hk').symm
      · rw [hnone] at hk'
        exact absurd hk' (by simp)
    have hsame : find key (update t i r) k' = find key t k' := by
      rw [find]
      congr 1
      funext j
      by_cases hj : j = i
      · subst hj
        rw [update_self, decide_eq_false hslot, decide_eq_false]
        rw [h.row]
        exact fun hk' => hk (some.inj hk').symm
      · rw [update_of_ne hj]
    rw [if_neg hk, rowOf, hsame]
    refine map_congr fun j hj => ?_
    have hne : j ≠ i := by
      rintro rfl
      exact hslot (key_of_find hj)
    rw [update_of_ne hne]

end KeyedTable
