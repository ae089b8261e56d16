import Mathlib.Data.List.TakeWhile

/-! # Words

The words of a list are the non-empty runs between its separators.  A scanner that skips
separators and takes a run goes through them in order. -/

namespace Words

open List

variable {α : Type} {sep : α → Bool} {l : List α}

theorem mem_takeWhile_not (hx : x ∈ l.takeWhile (fun c => !sep c)) : sep x = false := by
  have hall := all_eq_true.mp (all_takeWhile (p := fun c => !sep c) (l := l)) x hx
  rwa [Bool.not_eq_true'] at hall

variable [BEq α]

/-- The non-empty runs between separators. -/
def words (sep : α → Bool) (l : List α) : List (List α) :=
  (l.splitOnP sep).filter (fun w => w != [])

theorem words_separator (hc : sep c) (cs : List α) : words sep (c :: cs) = words sep cs := by
  rw [words, splitOnP_cons_eq_if_modifyHead, if_pos hc]
  exact filter_cons_of_neg Bool.false_ne_true

theorem words_skip (l : List α) : words sep (l.dropWhile sep) = words sep l := by
  induction l with
  | nil => rfl
  | cons c _ ih =>
    cases hc : sep c with
    | true => rw [dropWhile_cons_of_pos hc, ih, words_separator hc]
    | false => rw [dropWhile_cons_of_neg (by simp [hc])]

/-- A list that starts inside a word: the word and the rest. -/
theorem words_word (hc : sep c = false) (cs : List α) :
    words sep (c :: cs) = (c :: cs).takeWhile (fun c => !sep c)
      :: words sep ((c :: cs).dropWhile (fun c => !sep c)) := by
  have hhead : (c :: cs).takeWhile (fun c => !sep c) = c :: cs.takeWhile (fun c => !sep c) :=
    takeWhile_cons_of_pos (by rw [hc]; rfl)
  have hsplit := takeWhile_append_dropWhile (p := fun c => !sep c) (l := c :: cs)
  have hword := fun x (hx : x ∈ (c :: cs).takeWhile fun c => !sep c) => mem_takeWhile_not hx
  have hne : ((c :: cs).takeWhile (fun c => !sep c) != []) := by
    rw [hhead]
    rfl
  cases hrest : (c :: cs).dropWhile (fun c => !sep c) with
  | nil =>
    have hwhole : (c :: cs).splitOnP sep = [(c :: cs).takeWhile fun c => !sep c] := by
      rw [hrest, append_nil] at hsplit
      rw [← splitOnP_eq_singleton hword, hsplit]
    rw [words, hwhole, filter_cons, if_pos hne]
    rfl
  | cons d ds =>
    have hd : sep d := by
      have hstop := List.head?_dropWhile_not (fun c => !sep c) (c :: cs)
      rw [hrest] at hstop
      simpa using hstop
    have hfirst : (c :: cs).splitOnP sep
        = ((c :: cs).takeWhile fun c => !sep c) :: ds.splitOnP sep := by
      rw [hrest] at hsplit
      rw [← splitOnP_append_cons_of_forall_mem hword d hd, hsplit]
    rw [words_separator hd, words, hfirst, filter_cons, if_pos hne]
    rfl

theorem words_eq_nil : words sep l = [] ↔ ∀ c ∈ l, sep c := by
  induction l with
  | nil => exact iff_of_true rfl fun _ hc => absurd hc not_mem_nil
  | cons c _ ih =>
    cases hc : sep c with
    | true => rw [words_separator hc, ih, forall_mem_cons, and_iff_right hc]
    | false =>
      rw [words_word hc]
      exact iff_of_false (cons_ne_nil _ _) fun h => absurd (h c mem_cons_self) (by simp [hc])

end Words
