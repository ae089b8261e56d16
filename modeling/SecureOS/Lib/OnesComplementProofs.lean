import Mathlib.Algebra.GroupWithZero.Nat
import Mathlib.Algebra.BigOperators.Group.List.Basic

/-! # One's-complement sums of 16-bit words

The sum with end-around carry that the checksums of the internet protocols use, and the way
programs compute it: in a 32-bit accumulator whose high half is folded into the low half at the
end.  Both are the exact sum modulo 65535, and zero only for zeros (`Reduced`). -/

namespace OnesComplement

open List

variable {n r c : Nat} {ws : List Nat}

/-- The 16-bit words of a byte string; a single byte at its end is a high byte. -/
def words : List (BitVec 8) → List Nat
  | [] => []
  | [b] => [256 * b.toNat]
  | b :: c :: rest => (256 * b.toNat + c.toNat) :: words rest

/-- Addition with end-around carry. -/
def add (a b : Nat) : Nat := if a + b < 2 ^ 16 then a + b else a + b - 2 ^ 16 + 1

/-- The end-around sum of a list of words. -/
def sum (ws : List Nat) : Nat := ws.foldl add 0

/-- The sum in an accumulator of 32 bits. -/
def accumulate (ws : List Nat) : Nat := ws.foldl (fun acc w => (acc + w) % 2 ^ 32) 0

/-- The high half is added to the low half until nothing is left in it. -/
def foldCarry (acc : Nat) : Nat :=
  if acc / 2 ^ 16 = 0 then acc else foldCarry (acc % 2 ^ 16 + acc / 2 ^ 16)

/-- `r` is the 16-bit one's-complement value of the exact sum `n`. -/
structure Reduced (n r : Nat) : Prop where
  lt : r < 2 ^ 16
  mod : r % 65535 = n % 65535
  zero : r = 0 ↔ n = 0

theorem foldCarry_reduced (n : Nat) : Reduced n (foldCarry n) := by
  fun_induction foldCarry n with
  | case1 n h => exact ⟨by omega, rfl, Iff.rfl⟩
  | case2 n h ih => exact ⟨ih.lt, by have := ih.mod; omega, by have := ih.zero; omega⟩

theorem Reduced.add (h : Reduced n r) (hc : c < 2 ^ 16) : Reduced (n + c) (add r c) := by
  obtain ⟨_, _, _⟩ := h
  rw [OnesComplement.add]
  split
  · exact ⟨by omega, by omega, by omega⟩
  · exact ⟨by omega, by omega, by omega⟩

theorem foldl_reduced (hws : ∀ w ∈ ws, w < 2 ^ 16) (h : Reduced n r) :
    Reduced (n + ws.sum) (ws.foldl OnesComplement.add r) := by
  induction ws generalizing n r with
  | nil => exact h
  | cons w ws ih =>
    rw [forall_mem_cons] at hws
    rw [sum_cons, ← Nat.add_assoc]
    exact ih hws.2 (h.add hws.1)

theorem sum_reduced (hws : ∀ w ∈ ws, w < 2 ^ 16) : Reduced ws.sum (sum ws) := by
  have h := foldl_reduced hws (n := 0) (r := 0) ⟨by decide, rfl, Iff.rfl⟩
  rwa [Nat.zero_add] at h

theorem accumulate_eq (h : ws.sum < 2 ^ 32) : accumulate ws = ws.sum := by
  suffices ∀ acc, acc + ws.sum < 2 ^ 32 →
      ws.foldl (fun acc w => (acc + w) % 2 ^ 32) acc = acc + ws.sum by
    rw [accumulate, this 0 (by omega), Nat.zero_add]
  clear h
  induction ws with
  | nil => exact fun _ _ => rfl
  | cons w ws ih =>
    intro acc hacc
    rw [sum_cons] at hacc ⊢
    rw [foldl_cons, Nat.mod_eq_of_lt (by omega), ih _ (by omega), Nat.add_assoc]

theorem words_lt (bytes : List (BitVec 8)) : ∀ w ∈ words bytes, w < 2 ^ 16 := by
  fun_induction words bytes with
  | case1 => exact forall_mem_nil _
  | case2 b => exact forall_mem_singleton.mpr (by omega)
  | case3 b c rest ih => exact forall_mem_cons.mpr ⟨by omega, ih⟩

theorem sum_words_le (bytes : List (BitVec 8)) : (words bytes).sum ≤ 2 ^ 16 * bytes.length := by
  fun_induction words bytes with
  | case1 => exact Nat.le_refl _
  | case2 b =>
    rw [sum_singleton, length_singleton]
    omega
  | case3 b c rest ih =>
    rw [sum_cons, length_cons, length_cons]
    omega

/-- **A SUM WITH ITS CHECKSUM**: the complement of the folded sum of the words around an empty
    checksum field makes the sum all ones. -/
theorem sum_complement (ws : BitVec 16 → List Nat) (hlt : ∀ c, ∀ w ∈ ws c, w < 2 ^ 16)
    (hsum : ∀ c, (ws c).sum = (ws 0).sum + c.toNat) (hfits : (ws 0).sum < 2 ^ 32) :
    sum (ws (~~~ BitVec.ofNat 16 (foldCarry (accumulate (ws 0))))) = 0xFFFF := by
  rw [accumulate_eq hfits]
  have hfold := foldCarry_reduced (ws 0).sum
  have hred := sum_reduced (hlt (~~~ BitVec.ofNat 16 (foldCarry (ws 0).sum)))
  rw [hsum, BitVec.toNat_not, BitVec.toNat_ofNat, Nat.mod_eq_of_lt hfold.lt] at hred
  obtain ⟨_, _, _⟩ := hfold
  obtain ⟨_, _, _⟩ := hred
  omega

end OnesComplement
