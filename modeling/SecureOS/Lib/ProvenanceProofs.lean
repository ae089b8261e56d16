import Mathlib.Data.Set.Insert

/-! # Memories that know who wrote

A memory whose cells carry, next to their value, the writer the value comes from.
A value moves with its writer, a wiped cell has none. -/

namespace Provenance

open Function

variable {A V W B : Type}

/-- A value and the writer it comes from, if any. -/
structure Cell (V W : Type) where
  value : V
  writer : Option W
deriving DecidableEq, Repr

abbrev Memory (A V W : Type) := A → Cell V W

/-- A store, with its writer. -/
def write [DecidableEq A] (m : Memory A V W) (a : A) (w : W) (v : V) : Memory A V W :=
  update m a ⟨v, some w⟩

/-- The cells that meet a test get a value of no writer. -/
def wipe (m : Memory A V W) (p : A → Bool) (v : V) : Memory A V W :=
  fun a => if p a then ⟨v, none⟩ else m a

/-- A cell copied together with its writer. -/
def copy [DecidableEq A] (m : Memory A V W) (dst src : A) : Memory A V W := update m dst (m src)

/-- Every value in the memory comes from a writer in `s`. -/
def WrittenBy (s : Set W) (m : Memory A V W) : Prop := ∀ a w, (m a).writer = some w → w ∈ s

variable {s t : Set W} {m : Memory A V W}

theorem WrittenBy.mono (hst : s ⊆ t) (h : WrittenBy s m) : WrittenBy t m :=
  fun a w hw => hst (h a w hw)

theorem writtenBy_write [DecidableEq A] (hw : w ∈ s) (h : WrittenBy s m) (a : A) (v : V) :
    WrittenBy s (write m a w v) := by
  intro b w' hb
  by_cases hab : b = a
  · subst hab
    rw [write, update_self] at hb
    exact Option.some.inj hb ▸ hw
  · rw [write, update_of_ne hab] at hb
    exact h b w' hb

theorem writtenBy_wipe (h : WrittenBy s m) (p : A → Bool) (v : V) : WrittenBy s (wipe m p v) := by
  intro b w hb
  rw [wipe] at hb
  split at hb
  · cases hb
  · exact h b w hb

theorem writtenBy_copy [DecidableEq A] (h : WrittenBy s m) (dst src : A) :
    WrittenBy s (copy m dst src) := by
  intro b w hb
  by_cases hd : b = dst
  · subst hd
    rw [copy, update_self] at hb
    exact h src w hb
  · rw [copy, update_of_ne hd] at hb
    exact h b w hb

/-- **LOOP RULE**: what every round keeps, the loop keeps. -/
theorem writtenBy_foldl (hf : ∀ m b, WrittenBy s m → WrittenBy s (f m b)) (l : List B)
    (h : WrittenBy s m) : WrittenBy s (l.foldl f m) := by
  induction l generalizing m with
  | nil => exact h
  | cons b _ ih => exact ih (hf m b h)

end Provenance
