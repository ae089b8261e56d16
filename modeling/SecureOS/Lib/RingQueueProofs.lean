import Mathlib.Algebra.Ring.Nat
import Mathlib.Data.Fin.Basic
import Mathlib.Data.List.Range

/-! # A fixed ring as a queue

A ring of `n` cells with a head position and a count.  Pushing writes the
cell after the last one, modulo `n`; popping moves the head.  A push onto a
full ring overwrites the head, so the queue view needs room. -/

namespace RingQueue

open List

variable {n : Nat} [NeZero n] {E : Type}

/-- The ring: its cells, the head position and the number of entries. -/
structure Ring (n : Nat) (E : Type) where
  cells : Fin n → E
  head : Nat
  count : Nat

/-- The cell at a distance from the head. -/
def Ring.cell (r : Ring n E) (k : Nat) : E := r.cells (Fin.ofNat n (r.head + k))

/-- The entries in queue order. -/
def Ring.toList (r : Ring n E) : List E := (List.range r.count).map r.cell

/-- Append at the tail. -/
def Ring.push (r : Ring n E) (x : E) : Ring n E :=
  { r with
    cells := Function.update r.cells (Fin.ofNat n (r.head + r.count)) x
    count := r.count + 1 }

/-- Take the head. -/
def Ring.pop (r : Ring n E) : Option (E × Ring n E) :=
  if r.count = 0 then none
  else some (r.cell 0, { r with head := (r.head + 1) % n, count := r.count - 1 })

/-- Rewrite the ring from position zero without one entry. -/
def Ring.drop [DecidableEq E] (r : Ring n E) (x : E) : Ring n E :=
  { cells := fun i => ((r.toList.filter (· ≠ x))[i.val]?).getD (r.cells i)
    head := 0
    count := (r.toList.filter (· ≠ x)).length }

@[simp] theorem length_toList (r : Ring n E) : r.toList.length = r.count := by simp [Ring.toList]

/-- Positions less than `n` apart are different cells. -/
theorem ofNat_ne (hj : j < k) (hk : k < n + j) :
    (Fin.ofNat n (a + j) : Fin n) ≠ Fin.ofNat n (a + k) := by
  intro h
  have hv : (a + j) % n = (a + k) % n := congrArg Fin.val h
  have hmod : (a + k - (a + j)) % n = 0 := Nat.sub_mod_eq_zero_of_mod_eq hv.symm
  have hlt : a + k - (a + j) < n := by omega
  rw [Nat.mod_eq_of_lt hlt] at hmod
  omega

theorem toList_push (r : Ring n E) (x : E) (h : r.count < n) :
    (r.push x).toList = r.toList ++ [x] := by
  show (List.range (r.count + 1)).map (r.push x).cell = _
  rw [range_succ, map_append]
  congr 1
  · refine map_congr_left ?_
    intro k hk
    have hk' : k < r.count := mem_range.mp hk
    exact Function.update_of_ne (ofNat_ne hk' (by omega)) ..
  · show [(r.push x).cell r.count] = [x]
    exact congrArg (fun y => [y]) (Function.update_self ..)

theorem pop_none_iff (r : Ring n E) : r.pop = none ↔ r.toList = [] := by
  rw [Ring.pop, ← length_eq_zero_iff]
  by_cases h : r.count = 0 <;> simp [h]

/-- A pop takes the first entry and leaves the rest. -/
theorem pop_some {r r' : Ring n E} {x : E} (h : r.pop = some (x, r')) :
    r.toList = x :: r'.toList := by
  rw [Ring.pop] at h
  split at h
  · exact nomatch h
  case isFalse hc =>
    obtain ⟨rfl, rfl⟩ := Prod.mk.inj (Option.some.inj h)
    obtain ⟨_, hm⟩ := Nat.exists_eq_succ_of_ne_zero hc
    rw [Ring.toList, hm, range_succ_eq_map, map_cons, map_map]
    congr 1
    refine map_congr_left ?_
    intro k _
    show r.cells (Fin.ofNat n (r.head + (k + 1)))
      = r.cells (Fin.ofNat n ((r.head + 1) % n + k))
    congr 1
    refine Fin.ext ?_
    show (r.head + (k + 1)) % n = ((r.head + 1) % n + k) % n
    rw [Nat.mod_add_mod]
    congr 1
    omega

theorem pop_fst (r : Ring n E) : r.pop.map Prod.fst = r.toList.head? := by
  cases h : r.pop with
  | none => simp [(pop_none_iff r).mp h]
  | some _ => simp [pop_some h]

theorem toList_drop [DecidableEq E] (r : Ring n E) (x : E) (h : r.count ≤ n) :
    (r.drop x).toList = r.toList.filter (· ≠ x) := by
  have hle : (r.toList.filter (· ≠ x)).length ≤ n :=
    Nat.le_trans (length_filter_le _ _) (by rw [length_toList]; exact h)
  refine ext_getElem (by simp [Ring.drop]) ?_
  intro k _ h2
  have hcell : (r.drop x).toList[k] = (r.drop x).cell k := by simp [Ring.toList]
  rw [hcell]
  have hk : (0 + k) % n = k := by rw [Nat.zero_add]; exact Nat.mod_eq_of_lt (by omega)
  show ((r.toList.filter (· ≠ x))[(0 + k) % n]?).getD _ = _
  rw [hk, List.getElem?_eq_getElem h2]
  rfl

/-- Dropping an entry that is not there leaves the queue. -/
theorem toList_drop_of_not_mem [DecidableEq E] {r : Ring n E} {x : E} (h : r.count ≤ n)
    (hx : x ∉ r.toList) : (r.drop x).toList = r.toList := by
  rw [toList_drop r x h, filter_eq_self]
  intro _ hy
  rw [decide_eq_true_eq]
  rintro rfl
  exact hx hy

end RingQueue
