import SecureOS.Lib.GenHandleProofs
import SecureOS.Lib.MachineRunProofs

/-! # How long a stale handle stays stale

Generations run through the 65535 values other than zero and start over.  A machine whose steps
keep the generation of a slot and the object in it, or bump the generation, gives a value of a
handle out again only after a whole round. -/

namespace GenHandle

open MachineRun

variable {g : BitVec 16}

theorem bump_toNat (hg : g ≠ 0) : (bump g).toNat = g.toNat % 65535 + 1 := by
  rw [bump]
  by_cases hwrap : g + 1 = 0
  · have hval := congrArg BitVec.toNat hwrap
    have hval' : (g.toNat + 1) % 2 ^ 16 = 0 := hval
    rw [if_pos hwrap]
    show 1 = _
    omega
  · have hval : (g + 1).toNat ≠ 0 := fun h => hwrap (BitVec.eq_of_toNat_eq h)
    have hval' : (g.toNat + 1) % 2 ^ 16 ≠ 0 := hval
    rw [if_neg hwrap]
    show (g.toNat + 1) % 2 ^ 16 = _
    omega

theorem bump_ne_self (g : BitVec 16) : bump g ≠ g := by
  by_cases hg : g = 0
  · subst hg
    decide
  · intro h
    have hval := bump_toNat hg
    rw [h] at hval
    omega

theorem iterate_bump_ne_zero (hg : g ≠ 0) (k : Nat) : bump^[k] g ≠ 0 := by
  cases k with
  | zero => exact hg
  | succ =>
    rw [Function.iterate_succ_apply']
    exact bump_ne_zero _

theorem iterate_bump_toNat (hg : g ≠ 0) (k : Nat) :
    (bump^[k] g).toNat = (g.toNat - 1 + k) % 65535 + 1 := by
  have hpos : g.toNat ≠ 0 := fun h => hg (BitVec.eq_of_toNat_eq h)
  induction k with
  | zero =>
    show g.toNat = _
    omega
  | succ k =>
    rw [Function.iterate_succ_apply', bump_toNat (iterate_bump_ne_zero hg k)]
    omega

/-- A generation comes back after whole rounds only. -/
theorem round_of_iterate_bump (hg : g ≠ 0) (h : bump^[k] g = g) : k % 65535 = 0 := by
  have hval := iterate_bump_toNat hg k
  rw [h] at hval
  omega

/-- A step keeps the generation of a slot and the object in it, or bumps the generation. -/
def Evolves (live live' : Bool) (g g' : BitVec 16) : Prop := (g' = g ∧ (live → live')) ∨ g' = bump g

theorem evolves_refl (live : Bool) (g : BitVec 16) : Evolves live live g g := Or.inl ⟨rfl, id⟩

variable {S A : Type} {n : Nat} {step : S → A → S} {I : S → Prop} {live : S → Fin n → Bool}
  {gen : S → Fin n → BitVec 16}

/-- The step bumps the generation of the slot. -/
def bumps (step : S → A → S) (gen : S → Fin n → BitVec 16) (i : Fin n) (s : S) (a : A) : Bool :=
  gen (step s a) i != gen s i

/-- **GENERATION**: as many bumps as steps changed it. -/
theorem gen_run (hkept : ∀ s a, I s → I (step s a))
    (hstep : ∀ s a, I s → ∀ i, Evolves (live s i) (live (step s a) i) (gen s i) (gen (step s a) i))
    (i : Fin n) (as : List A) (s : S) (hs : I s) :
    gen (run step s as) i = bump^[hits step (bumps step gen i) s as] (gen s i) := by
  induction as generalizing s with
  | nil => rfl
  | cons a _ ih =>
    rw [run_cons, ih (step s a) (hkept s a hs), hits_cons]
    rcases hstep s a hs i with ⟨hsame, -⟩ | hbump
    · have hno : bumps step gen i s a = false := by rw [bumps, hsame, bne_self_eq_false]
      rw [hno, hsame, if_neg Bool.false_ne_true, Nat.zero_add]
    · have hyes : bumps step gen i s a = true := by
        rw [bumps, hbump, bne_iff_ne]
        exact bump_ne_self _
      rw [hyes, hbump, if_pos rfl, Nat.add_comm 1, Function.iterate_succ_apply]

/-- **A STALE HANDLE** stays stale until the bumps, with the one that made it so, are a round. -/
theorem stale_round (hkept : ∀ s a, I s → I (step s a))
    (hstep : ∀ s a, I s → ∀ i, Evolves (live s i) (live (step s a) i) (gen s i) (gen (step s a) i))
    (hne : ∀ s i, I s → live s i → gen s i ≠ 0) (hs : I s)
    (hlive : resolve (live s) (gen s) h = some i)
    (hstale : resolve (live (step s a)) (gen (step s a)) h = none)
    (hagain : resolve (live (run step (step s a) as)) (gen (run step (step s a) as)) h
      = some j) : (hits step (bumps step gen i) (step s a) as + 1) % 65535 = 0 := by
  rw [resolve_eq_some_iff] at hlive hagain
  obtain ⟨hdecode, hl⟩ := hlive
  obtain ⟨hdecode', -⟩ := hagain
  obtain ⟨hji, hgen⟩ := Prod.mk.inj (Option.some.inj (hdecode'.symm.trans hdecode))
  subst hji
  have hbump : gen (step s a) j = bump (gen s j) := by
    rcases hstep s a hs j with ⟨hsame, hkeep⟩ | hbump
    · have hstill : resolve (live (step s a)) (gen (step s a)) h = some j := by
        rw [resolve_eq_some_iff, hsame]
        exact ⟨hdecode, hkeep hl⟩
      rw [hstale] at hstill
      exact absurd hstill (by simp)
    · exact hbump
  refine round_of_iterate_bump (hne s j hs hl) ?_
  rw [Function.iterate_succ_apply, ← hbump, ← gen_run hkept hstep j as (step s a) (hkept s a hs)]
  exact hgen

/-- The handle of a dead slot is not zero and names nothing. -/
theorem dead_handle (hn : n ≤ 65536) (lv : Fin n → Bool) (gn : Fin n → BitVec 16)
    (hl : lv i = false) (hg : gn i ≠ 0) : encode (BitVec.ofNat 16 i.val) (gn i) ≠ 0
      ∧ resolve lv gn (encode (BitVec.ofNat 16 i.val) (gn i)) = none := by
  have hdecode := decode_encode hn i hg
  constructor
  · intro hz
    rw [hz, decode] at hdecode
    exact absurd hdecode (by simp)
  · rw [resolve, hdecode]
    show (if _ then none else some i) = none
    rw [hl]
    rfl

end GenHandle
