import Mathlib.Logic.Basic

/-! # A one-place cell with sleeping parties

A cell is full or empty.  Parties put into it while it is empty and take out of it while it is
full; a party that finds it the other way goes to sleep, and whoever completes a transfer wakes
a sleeper, which then tries again.

* `not_asleep` — with both sides covered and nobody awake, nobody sleeps on a side the cell is
  ready for. -/

namespace Rendezvous

variable {P : Type}

/-- The two sides of a cell. -/
inductive Side where
  | put
  | take
deriving DecidableEq, Repr

/-- The other side. -/
def Side.flip : Side → Side
  | .put => .take
  | .take => .put

/-- The cell is ready for the side. -/
def Side.ready (full : Bool) : Side → Bool
  | .put => !full
  | .take => full

/-- Where a party is with respect to one cell. -/
inductive Phase where
  | away
  | trying (s : Side)
  | asleep (s : Side)
deriving DecidableEq, Repr

/-- A cell and its parties. -/
structure Cell (P : Type) where
  full : Bool
  phase : P → Phase

/-- If a party sleeps on the side although the cell is ready, another of that side is awake. -/
def Covered (c : Cell P) (s : Side) : Prop :=
  s.ready c.full → (∃ p, c.phase p = .asleep s) → ∃ p, c.phase p = .trying s

/-- Both sides are covered. -/
def NoLost (c : Cell P) : Prop := ∀ s, Covered c s

variable {s : Side}

/-- A transfer makes the cell ready for the other side only. -/
theorem eq_flip_of_ready (full : Bool) (h : s.ready full)
    (h' : s'.ready (!full)) : s' = s.flip := by
  cases s with
  | put =>
    cases s' with
    | put => cases full <;> simp [Side.ready] at h h'
    | take => rfl
  | take =>
    cases s' with
    | put => rfl
    | take => cases full <;> simp [Side.ready] at h h'

theorem eq_flip_of_not_ready (h : s.ready full = false) (h' : s'.ready full) : s' = s.flip := by
  refine eq_flip_of_ready (!full) ?_ (by rw [Bool.not_not]; exact h')
  cases s <;> simpa [Side.ready] using h

variable {c : Cell P}

/-- **TRANSFER**: the other side is covered if one of it is awake afterwards whenever one slept. -/
theorem noLost_transfer (hready : s.ready c.full) (hfull : c'.full = !c.full)
    (hslept : ∀ p, c'.phase p = .asleep s.flip → c.phase p = .asleep s.flip)
    (hwake : (∃ p, c.phase p = .asleep s.flip) → ∃ p, c'.phase p = .trying s.flip) : NoLost c' := by
  intro _ hs' hasleep
  rw [hfull] at hs'
  obtain rfl := eq_flip_of_ready c.full hready hs'
  obtain ⟨p, hp⟩ := hasleep
  exact hwake ⟨p, hslept p hp⟩

/-- **SLEEP** on a side the cell is not ready for leaves the other side as it was. -/
theorem noLost_sleep (hshut : s.ready c.full = false)
    (hfull : c'.full = c.full) (hq : c'.phase q = .asleep s)
    (hother : ∀ p, p ≠ q → c'.phase p = c.phase p) (hwas : c.phase q ≠ .trying s.flip)
    (hcov : Covered c s.flip) : NoLost c' := by
  intro _ hs' hasleep
  rw [hfull] at hs'
  obtain rfl := eq_flip_of_not_ready hshut hs'
  have hne : s.flip ≠ s := by cases s <;> simp [Side.flip]
  obtain ⟨p, hp⟩ := hasleep
  have hpq : p ≠ q := by
    rintro rfl
    exact hne (Phase.asleep.inj (hp.symm.trans hq))
  obtain ⟨w, hw⟩ := hcov hs' ⟨p, (hother p hpq).symm.trans hp⟩
  have hwq : w ≠ q := by
    rintro rfl
    exact hwas hw
  exact ⟨w, (hother w hwq).trans hw⟩

/-- **NOBODY AWAKE** means nobody asleep on a side the cell is ready for. -/
theorem not_asleep (h : NoLost c) (hidle : ∀ p s, c.phase p ≠ .trying s)
    (hs : s.ready c.full) (p : P) : c.phase p ≠ .asleep s := by
  intro hp
  obtain ⟨w, hw⟩ := h s hs ⟨p, hp⟩
  exact hidle w s hw

end Rendezvous
