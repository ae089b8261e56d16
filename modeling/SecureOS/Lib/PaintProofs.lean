import Mathlib.Data.Nat.Basic

/-! # Painting over a picture

A picture gives each point a colour; a drawing operation makes another picture of it.
An operation that paints only inside a region leaves every point outside as it was, and
so does one such operation after another. -/

namespace Paint

variable {P C : Type}

/-- The operation paints only inside the region. -/
def PaintsIn (R : P → Prop) (f : (P → C) → P → C) : Prop := ∀ c p, ¬ R p → f c p = c p

theorem PaintsIn.mono (h : PaintsIn R f) (hle : ∀ p, R p → R' p) : PaintsIn R' f :=
  fun c p hp => h c p (fun hr => hp (hle p hr))

theorem PaintsIn.comp (hf : PaintsIn R f) (hg : PaintsIn R g) : PaintsIn R (fun c => g (f c)) :=
  fun c p hp => (hg (f c) p hp).trans (hf c p hp)

/-- The index of a pixel in a picture of `w` by `h` pixels, row by row. -/
theorem pixel_lt {x y w h : Nat} (hy : y < h) (hx : x < w) : y * w + x < w * h := by
  have hle : (y + 1) * w ≤ h * w := Nat.mul_le_mul_right w hy
  rw [Nat.mul_comm w h]
  rw [Nat.succ_mul] at hle
  omega

end Paint
