import Mathlib.Data.Finset.Card

/-! # Who sits in which slot

Askers wait in the slots of a table: `seat` says where an asker waits, if it
does, and `taken` which slots are marked as in use. -/

namespace Seating

open Function Option Finset

variable {A K : Type} {seat : A → Option K} {taken : K → Bool}

/-- Waiting askers and marked slots belong together, one to one. -/
structure Seated (seat : A → Option K) (taken : K → Bool) : Prop where
  occupied : ∀ a k, seat a = some k → taken k = true
  apart : ∀ a b k, seat a = some k → seat b = some k → a = b
  awaited : ∀ k, taken k = true → ∃ a, seat a = some k

theorem seated_empty : Seated (fun _ : A => (none : Option K)) (fun _ => false) where
  occupied a k h := by cases h
  apart a b k h := by cases h
  awaited k h := absurd h Bool.false_ne_true

/-- **SITTING DOWN** in a slot that is not marked. -/
theorem Seated.take [DecidableEq A] [DecidableEq K] (h : Seated seat taken)
    (ha : seat a = none) (hk : taken k = false) :
    Seated (update seat a (some k)) (update taken k true) := by
  -- nobody else sits in a slot that is not marked
  have hfree : ∀ b, seat b ≠ some k := fun b hb =>
    Bool.false_ne_true (hk.symm.trans (h.occupied b k hb))
  constructor
  · intro b j hb
    by_cases hjk : j = k
    · rw [hjk, update_self]
    · rw [update_of_ne hjk]
      by_cases hba : b = a
      · rw [hba, update_self] at hb
        exact absurd (some.inj hb).symm hjk
      · rw [update_of_ne hba] at hb
        exact h.occupied b j hb
  · intro b c j hb hc
    by_cases hba : b = a
    · by_cases hca : c = a
      · rw [hba, hca]
      · rw [hba, update_self] at hb
        rw [update_of_ne hca, ← some.inj hb] at hc
        exact absurd hc (hfree c)
    · rw [update_of_ne hba] at hb
      by_cases hca : c = a
      · rw [hca, update_self] at hc
        rw [← some.inj hc] at hb
        exact absurd hb (hfree b)
      · rw [update_of_ne hca] at hc
        exact h.apart b c j hb hc
  · intro j hj
    by_cases hjk : j = k
    · exact ⟨a, by rw [update_self, hjk]⟩
    · rw [update_of_ne hjk] at hj
      obtain ⟨b, hb⟩ := h.awaited j hj
      have hba : b ≠ a := by
        rintro rfl
        rw [ha] at hb
        cases hb
      exact ⟨b, by rw [update_of_ne hba]; exact hb⟩

/-- **GETTING UP** from one's slot. -/
theorem Seated.leave [DecidableEq A] [DecidableEq K] (h : Seated seat taken)
    (ha : seat a = some k) : Seated (update seat a none) (update taken k false) := by
  have hother : ∀ b j, update seat a none b = some j → b ≠ a ∧ seat b = some j := by
    intro b j hb
    by_cases hba : b = a
    · rw [hba, update_self] at hb
      cases hb
    · rw [update_of_ne hba] at hb
      exact ⟨hba, hb⟩
  constructor
  · intro b j hb
    obtain ⟨hba, hb⟩ := hother b j hb
    have hjk : j ≠ k := by
      rintro rfl
      exact hba (h.apart b a j hb ha)
    rw [update_of_ne hjk]
    exact h.occupied b j hb
  · intro b c j hb hc
    exact h.apart b c j (hother b j hb).2 (hother c j hc).2
  · intro j hj
    by_cases hjk : j = k
    · rw [hjk, update_self] at hj
      exact absurd hj Bool.false_ne_true
    · rw [update_of_ne hjk] at hj
      obtain ⟨b, hb⟩ := h.awaited j hj
      have hba : b ≠ a := by
        rintro rfl
        exact hjk (some.inj (hb.symm.trans ha))
      exact ⟨b, by rw [update_of_ne hba]; exact hb⟩

/-- **AS MANY** slots are marked as askers wait. -/
theorem Seated.card_eq [Fintype A] [Fintype K] (h : Seated seat taken) :
    (Finset.univ.filter (fun k => taken k = true)).card
      = (Finset.univ.filter (fun a => (seat a).isSome = true)).card := by
  symm
  refine card_bij (fun a ha => (seat a).get (mem_filter.mp ha).2) ?_ ?_ ?_
  · intro a ha
    rw [mem_filter]
    exact ⟨mem_univ _, h.occupied a _ (some_get _).symm⟩
  · intro a ha b hb hab
    have hb' := (some_get (mem_filter.mp hb).2).symm
    exact h.apart a b _ (some_get _).symm (hb'.trans (congrArg some hab.symm))
  · intro k hk
    obtain ⟨a, ha⟩ := h.awaited k (mem_filter.mp hk).2
    refine ⟨a, mem_filter.mpr ⟨mem_univ a, by rw [ha]; rfl⟩, ?_⟩
    simp only [ha, get_some]

end Seating
