import Mathlib.Data.List.Basic

/-! # Multiplicative mixing chains

A chain absorbs words one by one: each is combined with the accumulator by exclusive or and the
result is multiplied by a constant, modulo `2 ^ w`. Where the constant has an inverse, one step
loses nothing of either argument, so a difference of two chains that goes in stays in. -/

namespace MixChain

variable {w : Nat} {p q : BitVec w}

/-- Absorb one word. -/
def mix (p acc value : BitVec w) : BitVec w := (acc ^^^ value) * p

/-- Absorb a list of words. -/
def chain (p acc : BitVec w) (words : List (BitVec w)) : BitVec w := words.foldl (mix p) acc

@[simp] theorem chain_cons (p acc v : BitVec w) (words : List (BitVec w)) :
    chain p acc (v :: words) = chain p (mix p acc v) words := rfl

theorem chain_append (p acc : BitVec w) (l r : List (BitVec w)) :
    chain p acc (l ++ r) = chain p (chain p acc l) r :=
  List.foldl_append

section

variable (hpq : p * q = 1#w)
include hpq

theorem mul_cancel (h : x * p = y * p) : x = y := by
  have hx : ∀ z : BitVec w, z * p * q = z := by
    intro _
    rw [BitVec.mul_assoc, hpq, BitVec.mul_one]
  rw [← hx x, h, hx y]

theorem mix_left_inj (v : BitVec w) : mix p a v = mix p b v ↔ a = b := by
  constructor
  · intro h
    exact BitVec.xor_left_inj v |>.mp (mul_cancel hpq h)
  · rintro rfl
    rfl

theorem mix_right_inj (a : BitVec w) : mix p a v = mix p a v' ↔ v = v' := by
  constructor
  · intro h
    exact BitVec.xor_right_inj a |>.mp (mul_cancel hpq h)
  · rintro rfl
    rfl

/-- Absorbing the same words keeps two accumulators apart. -/
theorem chain_inj (words : List (BitVec w)) : chain p a words = chain p b words ↔ a = b := by
  induction words generalizing a b with
  | nil => exact Iff.rfl
  | cons _ _ ih => rw [chain_cons, chain_cons, ih, mix_left_inj hpq]

/-- **ONE WORD**: two chains that differ in a single word agree only if the words do. -/
theorem chain_replace_inj (acc : BitVec w) (l r : List (BitVec w)) :
    chain p acc (l ++ v :: r) = chain p acc (l ++ v' :: r) ↔ v = v' := by
  rw [chain_append, chain_append, chain_cons, chain_cons, chain_inj hpq, mix_right_inj hpq]

end

end MixChain
