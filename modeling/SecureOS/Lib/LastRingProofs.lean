import Mathlib.Algebra.Ring.Nat
import Mathlib.Data.Fin.Basic
import Mathlib.Data.List.Basic

/-! # A ring that keeps the last entries

A log of `n` cells with the position of the next write and a count that
stops at `n`.  A write onto a full log replaces the oldest entry. -/

namespace LastRing

open List

variable {n : Nat} [NeZero n] {E : Type}

/-- The log: its cells, where the next entry goes, how many are in use. -/
structure Log (n : Nat) (E : Type) where
  cells : Fin n → E
  next : Fin n
  count : Nat

/-- Write an entry. -/
def Log.push (r : Log n E) (x : E) : Log n E :=
  ⟨Function.update r.cells r.next x, r.next + 1, if r.count < n then r.count + 1 else r.count⟩

/-- Read an entry, counted from the oldest one. -/
def Log.get (r : Log n E) (i : Nat) : Option E :=
  if r.count ≤ i then none
  else some (r.cells (Fin.ofNat n ((if r.count = n then r.next.val else 0) + i)))

/-- What a caller makes of a read. -/
theorem elim_get (r : Log n E) (i : Nat) (e : F) (f : E → F) :
    (r.get i).elim e f = if r.count ≤ i then e
      else f (r.cells (Fin.ofNat n ((if r.count = n then r.next.val else 0) + i))) := by
  rw [Log.get]
  split <;> rfl

/-- The log after everything in the list was written to an empty one. -/
structure Holds (r : Log n E) (xs : List E) : Prop where
  next : r.next = Fin.ofNat n xs.length
  count : r.count = min xs.length n
  cells : ∀ k x, xs.length ≤ k + n → xs[k]? = some x → r.cells (Fin.ofNat n k) = x

variable {r : Log n E}

theorem holds_nil (hnext : r.next = 0) (hcount : r.count = 0) : Holds r [] where
  next := hnext
  count := by rw [hcount, length_nil, Nat.zero_min]
  cells _ _ _ h := by exact absurd h (by simp)

/-- Numbers less than `n` apart name different cells. -/
theorem ofNat_ne_of_lt (hj : j < k) (hk : k < j + n) : (Fin.ofNat n j : Fin n) ≠ Fin.ofNat n k := by
  intro h
  have hv : j % n = k % n := congrArg Fin.val h
  have hmod : (k - j) % n = 0 := Nat.sub_mod_eq_zero_of_mod_eq hv.symm
  rw [Nat.mod_eq_of_lt (by omega)] at hmod
  omega

variable {xs : List E}

/-- **STEP**: a write appends to what was written. -/
theorem holds_push (h : Holds r xs) (x : E) : Holds (r.push x) (xs ++ [x]) where
  next := by
    show r.next + 1 = _
    rw [h.next, length_append]
    refine Fin.ext ?_
    show (xs.length % n + 1 % n) % n = (xs.length + 1) % n
    rw [← Nat.add_mod]
  count := by
    show (if r.count < n then r.count + 1 else r.count) = _
    rw [h.count, length_append, length_singleton]
    split <;> omega
  cells := by
    intro k y hk hy
    show Function.update r.cells r.next x (Fin.ofNat n k) = y
    rw [length_append, length_singleton] at hk
    rw [h.next]
    by_cases hlast : k = xs.length
    · subst hlast
      simpa using hy
    · -- an earlier entry that is still kept lies in another cell
      have hlt : k < xs.length := by
        have hbound := (List.getElem?_eq_some_iff.mp hy).1
        rw [length_append, length_singleton] at hbound
        omega
      rw [Function.update_of_ne (ofNat_ne_of_lt hlt (by omega))]
      rw [List.getElem?_append_left hlt] at hy
      exact h.cells k y (by omega) hy

/-- The entry of the oldest one kept. -/
theorem start_of_holds (h : Holds r xs) (i : Nat) :
    (Fin.ofNat n ((if r.count = n then r.next.val else 0) + i) : Fin n)
      = Fin.ofNat n (xs.length - min xs.length n + i) := by
  refine Fin.ext ?_
  show ((if r.count = n then r.next.val else 0) + i) % n
    = (xs.length - min xs.length n + i) % n
  rw [h.count, h.next]
  by_cases hfull : n ≤ xs.length
  · have hmin : min xs.length n = n := Nat.min_eq_right hfull
    rw [hmin, if_pos rfl]
    show (xs.length % n + i) % n = _
    rw [Nat.mod_add_mod, show xs.length + i = xs.length - n + i + n by omega, Nat.add_mod_right]
  · have hmin : min xs.length n = xs.length := Nat.min_eq_left (by omega)
    rw [hmin, if_neg (by omega), Nat.sub_self]

/-- **READING**: entry `i` is number `length - min length n + i` of what was written,
    and there are `min length n` of them. -/
theorem get_of_holds (h : Holds r xs) (i : Nat) :
    r.get i = if i < min xs.length n then xs[xs.length - min xs.length n + i]? else none := by
  rw [Log.get]
  by_cases hi : i < min xs.length n
  · have hlt : xs.length - min xs.length n + i < xs.length := by omega
    rw [if_neg (by rw [h.count]; omega), if_pos hi, start_of_holds h, List.getElem?_eq_getElem hlt]
    exact congrArg some (h.cells _ _ (by omega) (List.getElem?_eq_getElem hlt))
  · rw [if_pos (by rw [h.count]; omega), if_neg hi]

end LastRing
