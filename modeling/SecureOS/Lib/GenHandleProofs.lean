import Mathlib.Data.Fin.Basic

/-! # Index and generation handles

A 32-bit handle packs a table index in its low half and the generation of the table entry in its
high half.  Zero names nothing, so generations start at one and skip zero when they wrap. -/

namespace GenHandle

open BitVec

/-- Generation in the high half, index in the low half. -/
def encode (index generation : BitVec 16) : BitVec 32 :=
  (generation.setWidth 32 <<< 16) ||| index.setWidth 32

/-- The index half. -/
def indexOf (h : BitVec 32) : BitVec 16 := (h &&& 0xFFFF#32).setWidth 16

/-- The generation half. -/
def generationOf (h : BitVec 32) : BitVec 16 := ((h >>> 16) &&& 0xFFFF#32).setWidth 16

/-- The table index and generation of a handle that is not zero and in range. -/
def decode (n : Nat) (h : BitVec 32) : Option (Fin n × BitVec 16) :=
  if h = 0 then none
  else if hi : (indexOf h).toNat < n then some (⟨(indexOf h).toNat, hi⟩, generationOf h)
  else none

/-- The next generation, skipping zero. -/
def bump (g : BitVec 16) : BitVec 16 := if g + 1 = 0 then 1 else g + 1

theorem indexOf_toNat (h : BitVec 32) : (indexOf h).toNat = h.toNat % 65536 := by
  rw [indexOf, toNat_setWidth, toNat_and,
    show (0xFFFF#32 : BitVec 32).toNat = 2 ^ 16 - 1 from rfl, Nat.and_two_pow_sub_one_eq_mod]
  omega

theorem generationOf_toNat (h : BitVec 32) : (generationOf h).toNat = h.toNat / 65536 := by
  rw [generationOf, toNat_setWidth, toNat_and, toNat_ushiftRight,
    Nat.shiftRight_eq_div_pow, show (0xFFFF#32 : BitVec 32).toNat = 2 ^ 16 - 1 from rfl,
    Nat.and_two_pow_sub_one_eq_mod]
  omega

variable {n : Nat} {h : BitVec 32}

theorem decode_parts (hx : decode n h = some x) :
    h.toNat % 65536 = x.1.val ∧ h.toNat / 65536 = x.2.toNat := by
  rw [decode] at hx
  split at hx
  · exact nomatch hx
  · split at hx
    · obtain rfl := Option.some.inj hx
      exact ⟨(indexOf_toNat h).symm, (generationOf_toNat h).symm⟩
    · exact nomatch hx

/-- Two handles of one table entry at one generation are the same handle. -/
theorem eq_of_decode (h1 : decode n h = some x) (h2 : decode n h' = some x) : h = h' := by
  obtain ⟨_, _⟩ := decode_parts h1
  obtain ⟨_, _⟩ := decode_parts h2
  rw [toNat_eq]
  omega

theorem encode_toNat (i g : BitVec 16) : (encode i g).toNat = 65536 * g.toNat + i.toNat := by
  have hi := i.isLt
  have hshift : (g.setWidth 32 <<< 16).toNat = 2 ^ 16 * g.toNat := by
    rw [toNat_shiftLeft, toNat_setWidth]
    omega
  have hlow : (i.setWidth 32).toNat = i.toNat := by
    rw [toNat_setWidth]
    omega
  rw [encode, toNat_or, hshift, hlow, ← Nat.two_pow_add_eq_or_of_lt hi]

/-- A handle that decodes is the one made of its parts. -/
theorem encode_of_decode (hn : n ≤ 65536)
    (hx : decode n h = some (i, g)) : encode (BitVec.ofNat 16 i.val) g = h := by
  have hidx : h.toNat % 65536 = i.val := (decode_parts hx).1
  have hgen : h.toNat / 65536 = g.toNat := (decode_parts hx).2
  rw [toNat_eq, encode_toNat, toNat_ofNat]
  omega

theorem bump_ne_zero (g : BitVec 16) : bump g ≠ 0 := by
  unfold bump
  split
  · decide
  case isFalse h => exact h

/-- A handle made with a generation other than zero decodes to its parts. -/
theorem decode_encode (hn : n ≤ 65536) (i : Fin n) (hg : g ≠ 0) :
    decode n (encode (BitVec.ofNat 16 i.val) g) = some (i, g) := by
  have hi := i.isLt
  have hgpos : g.toNat ≠ 0 := fun h => hg (eq_of_toNat_eq h)
  have hval : (encode (BitVec.ofNat 16 i.val) g).toNat = 65536 * g.toNat + i.val := by
    rw [encode_toNat, toNat_ofNat, Nat.mod_eq_of_lt (by omega)]
  generalize encode (BitVec.ofNat 16 i.val) g = e at hval ⊢
  have hne : e ≠ 0 := by
    intro h
    rw [h] at hval
    have hzero : (0 : BitVec 32).toNat = 0 := rfl
    omega
  have hidx : (indexOf e).toNat = i.val := by
    rw [indexOf_toNat]
    omega
  have hgen : generationOf e = g := by
    apply eq_of_toNat_eq
    rw [generationOf_toNat]
    omega
  rw [decode, if_neg hne, dif_pos (by rw [hidx]; exact hi), hgen]
  exact congrArg (fun j => some (j, g)) (Fin.ext hidx)

/-- The live table entry a handle names. -/
def resolve {n : Nat} (live : Fin n → Bool) (gen : Fin n → BitVec 16) (h : BitVec 32) :
    Option (Fin n) :=
  match decode n h with
  | none => none
  | some (i, g) => if !live i || gen i != g then none else some i

theorem resolve_eq_some_iff (live : Fin n → Bool) (gen : Fin n → BitVec 16) (h : BitVec 32)
    (i : Fin n) : resolve live gen h = some i ↔ decode n h = some (i, gen i) ∧ live i := by
  rw [resolve]
  cases hd : decode n h with
  | none => simp
  | some x =>
    obtain ⟨j, g⟩ := x
    by_cases hj : live j = true ∧ gen j = g
    · obtain ⟨hl, rfl⟩ := hj
      simp only [hl, Bool.not_true, bne_self_eq_false, Bool.or_self, Bool.false_eq_true,
        if_false, Option.some.injEq, Prod.mk.injEq]
      constructor
      · rintro rfl; exact ⟨⟨rfl, rfl⟩, hl⟩
      · rintro ⟨⟨rfl, -⟩, -⟩; rfl
    · have hif : (!live j || gen j != g) = true := by
        rw [Bool.or_eq_true, Bool.not_eq_true', bne_iff_ne, ← Bool.not_eq_true]
        exact not_and_or.mp hj
      simp only [hif, if_true, reduceCtorEq, Option.some.injEq, Prod.mk.injEq, false_iff]
      rintro ⟨⟨rfl, hg⟩, hl⟩
      exact hj ⟨hl, hg.symm⟩

theorem resolve_inj (live : Fin n → Bool) (gen : Fin n → BitVec 16)
    (h1 : resolve live gen h = some i) (h2 : resolve live gen h' = some i) : h = h' :=
  eq_of_decode ((resolve_eq_some_iff live gen h i).mp h1).1
    ((resolve_eq_some_iff live gen h' i).mp h2).1

/-- A handle still names an entry that has the same liveness and generation. -/
theorem resolve_kept (live live' : Fin n → Bool) (gen gen' : Fin n → BitVec 16)
    (hi : resolve live gen h = some i) (hl : live' i = live i) (hg : gen' i = gen i) :
    resolve live' gen' h = some i := by
  rw [resolve_eq_some_iff] at hi ⊢
  rw [hl, hg]
  exact hi

end GenHandle
