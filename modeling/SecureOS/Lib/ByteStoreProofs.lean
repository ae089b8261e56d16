import Mathlib.Data.List.Basic

/-! # Stores into a memory of cells

A memory is a function on addresses.  A store replaces a run of cells by the
elements of a list, a load reads a run of cells. -/

namespace ByteStore

open List

variable {α : Type}

/-- A run of cells. -/
def load (m : Nat → α) (off len : Nat) : List α := (List.range len).map (fun i => m (off + i))

/-- A run of cells replaced. -/
def store (m : Nat → α) (off : Nat) (xs : List α) : Nat → α := fun i =>
  if off ≤ i then xs[i - off]?.getD (m i) else m i

variable {m : Nat → α} {off : Nat} {xs ys ws : List α}

theorem store_of_lt (h : i < off) : store m off xs i = m i :=
  if_neg (Nat.not_le.mpr h)

theorem store_of_ge (h : off + xs.length ≤ i) : store m off xs i = m i := by
  rw [store, if_pos (by omega), List.getElem?_eq_none (by omega), Option.getD_none]

theorem store_apply (h : off ≤ i) : store m off xs i = xs[i - off]?.getD (m i) :=
  if_pos h

theorem store_apply_of_lt (h : i < xs.length) : store m off xs (off + i) = xs[i] := by
  rw [store_apply (Nat.le_add_right ..), Nat.add_sub_cancel_left, List.getElem?_eq_getElem h,
    Option.getD_some]

@[simp] theorem load_length (m : Nat → α) (off len : Nat) : (load m off len).length = len := by
  rw [load, length_map, length_range]

theorem load_congr (h : ∀ i, i < len → m (off + i) = m' (off + i)) :
    load m off len = load m' off len :=
  map_congr_left (fun i hi => h i (mem_range.mp hi))

theorem load_add (m : Nat → α) (off a b : Nat) :
    load m off (a + b) = load m off a ++ load m (off + a) b := by
  rw [load, range_add, map_append, map_map]
  congr 1
  refine map_congr_left (fun i _ => ?_)
  exact congrArg m (Nat.add_assoc off a i).symm

theorem take_load (m : Nat → α) (off len k : Nat) :
    (load m off len).take k = load m off (min k len) := by
  rw [load, load, ← map_take, take_range]

theorem load_store (m : Nat → α) (off : Nat) (xs : List α) :
    load (store m off xs) off xs.length = xs := by
  refine ext_getElem (load_length ..) (fun i _ hi => ?_)
  simp only [load, getElem_map, getElem_range]
  exact store_apply_of_lt hi

theorem load_store_of_disjoint (h : off' + len ≤ off ∨ off + xs.length ≤ off') :
    load (store m off xs) off' len = load m off' len := by
  refine load_congr (fun i hi => ?_)
  rcases h with _ | _
  · exact store_of_lt (by omega)
  · exact store_of_ge (by omega)

theorem load_store_part (m : Nat → α) (off : Nat) (xs ys zs : List α) :
    load (store m off (xs ++ ys ++ zs)) (off + xs.length) ys.length = ys := by
  have h := load_store m off (xs ++ ys ++ zs)
  rw [length_append, length_append, load_add, load_add] at h
  have h2 := append_inj_left h (by simp)
  exact append_inj_right h2 (by simp)

theorem load_store_front (m : Nat → α) (off : Nat) (ys : List α)
    (h : i + n ≤ xs.length) : load (store m off (xs ++ ys)) (off + i) n = (xs.drop i).take n := by
  refine ext_getElem (by simp; omega) (fun j hj _ => ?_)
  rw [load_length] at hj
  simp only [load, getElem_map, getElem_range, getElem_take, getElem_drop]
  rw [Nat.add_assoc, store_apply_of_lt (by rw [length_append]; omega),
    getElem_append_left (by omega)]

theorem store_append (m : Nat → α) (off : Nat) (xs ys : List α) :
    store (store m off xs) (off + xs.length) ys = store m off (xs ++ ys) := by
  funext i
  by_cases hlt : i < off + xs.length
  · rw [store_of_lt hlt]
    by_cases hoff : off ≤ i
    · rw [store_apply hoff, store_apply hoff, List.getElem?_append_left (by omega)]
    · rw [store_of_lt (by omega), store_of_lt (by omega)]
  · rw [store_apply (by omega), store_of_ge (by omega), store_apply (by omega),
      List.getElem?_append_right (by omega), Nat.sub_add_eq]

/-- Cells stored twice keep what was stored last. -/
theorem store_patch (m : Nat → α) (off : Nat) (xs zs : List α) (h : ys.length = ws.length) :
    store (store m off (xs ++ ys ++ zs)) (off + xs.length) ws = store m off (xs ++ ws ++ zs) := by
  funext i
  by_cases hlt : i < off + xs.length
  · rw [store_of_lt hlt]
    by_cases hoff : off ≤ i
    · rw [store_apply hoff, store_apply hoff, append_assoc, append_assoc,
        List.getElem?_append_left (by omega), List.getElem?_append_left (by omega)]
    · rw [store_of_lt (by omega), store_of_lt (by omega)]
  · have hskip (vs : List α) : (xs ++ vs)[i - off]? = vs[i - off - xs.length]? :=
      List.getElem?_append_right (by omega)
    rw [store_apply (by omega), store_apply (by omega), store_apply (by omega), append_assoc,
      append_assoc, hskip, hskip, Nat.sub_add_eq]
    by_cases hin : i - off - xs.length < ws.length
    · rw [List.getElem?_append_left hin, List.getElem?_eq_getElem hin, Option.getD_some,
        Option.getD_some]
    · rw [List.getElem?_eq_none (Nat.le_of_not_lt hin), Option.getD_none,
        List.getElem?_append_right (by omega), List.getElem?_append_right (by omega), h]

/-- The next store into a run that was cleared before. -/
theorem store_next (m : Nat → α) (off : Nat) (z : α) (xs ys : List α) (k : Nat) :
    store (store m off (xs ++ List.replicate (ys.length + k) z)) (off + xs.length) ys
      = store m off (xs ++ ys ++ List.replicate k z) := by
  rw [replicate_add, ← append_assoc]
  exact store_patch m off xs (List.replicate k z) (length_replicate ..)

/-- Lists stored one behind the other. -/
def storeRuns : (m : Nat → α) → (off : Nat) → List (List α) → Nat → α
  | m, _, [] => m
  | m, off, xs :: runs => storeRuns (store m off xs) (off + xs.length) runs

/-- **STORES INTO A CLEARED RUN**: lists stored one behind the other are one list. -/
theorem storeRuns_cleared (m : Nat → α) (off : Nat) (z : α) (k : Nat) (runs : List (List α)) :
    ∀ xs : List α, storeRuns (store m off (xs ++ List.replicate (runs.flatten.length + k) z))
          (off + xs.length) runs = store m off (xs ++ runs.flatten ++ List.replicate k z) := by
  induction runs with
  | nil =>
    intro xs
    rw [storeRuns, flatten_nil, length_nil, Nat.zero_add, append_nil]
  | cons ys _ ih =>
    intro xs
    rw [storeRuns, flatten_cons, length_append, Nat.add_assoc, store_next,
      Nat.add_assoc, ← length_append, ih, append_assoc xs ys]

end ByteStore
