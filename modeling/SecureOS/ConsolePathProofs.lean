import Mathlib.Data.List.Infix
import SecureOS.ConsolePathModel
import SecureOS.FsPathProofs

/-! # Normal forms of paths

`normalize_absolute_path` edits its output in place.  Here its output is compared
with a stack of components, on paths whose components and intermediate results fit. -/

namespace ConsolePath

open List
open Fs (fsPathIsSeparator fsSkipPathSeparators splitPath splitPath_skip splitPath_separator
  splitPath_step splitPath_component inComponent mem_takeWhile_inComponent)

/-- What a component does to the stack. -/
def pushWord (stack : List Path) (w : Path) : List Path :=
  if w = text "." then stack else if w = text ".." then stack.dropLast else stack ++ [w]

/-- The components that are left. -/
def stackOf (ws : List Path) : List Path := ws.foldl pushWord []

/-- The stack as a path. -/
def render (stack : List Path) : Path :=
  if stack = [] then text "/" else stack.flatMap (byte '/' :: ·)

/-- A component as the scan finds it. -/
def Word (w : Path) : Prop := w ≠ [] ∧ ∀ c ∈ w, fsPathIsSeparator c = false

theorem pathWords_eq (fuel : Nat) (path : Path) (h : path.length ≤ fuel) :
    pathWords fuel path = splitPath path ∧ ∀ w ∈ splitPath path, Word w := by
  induction fuel generalizing path with
  | zero =>
    rw [length_eq_zero_iff.mp (Nat.le_zero.mp h)]
    exact ⟨rfl, nofun⟩
  | succ _ ih =>
    rw [pathWords, ← fsSkipPathSeparators]
    cases hcur : fsSkipPathSeparators path with
    | nil =>
      rw [← splitPath_skip, hcur]
      exact ⟨rfl, nofun⟩
    | cons =>
      obtain ⟨hsplit, hrest⟩ := splitPath_step hcur
      obtain ⟨heq, hwords⟩ := ih _ (Nat.lt_succ_iff.mp (hrest.trans_le h))
      refine ⟨?_, fun w hw => ⟨by simpa using of_mem_filter hw, ?_⟩⟩
      · rw [hsplit, ← heq]
        rfl
      · rw [hsplit] at hw
        obtain rfl | hw := mem_cons.mp hw
        · exact fun x hx => mem_takeWhile_inComponent hx
        · exact (hwords w hw).2

variable {stack : List Path} {w : Path}

/-- Words that are not taken away again. -/
def Name (w : Path) : Prop := Word w ∧ w ≠ text "." ∧ w ≠ text ".."

theorem stackOf_concat (ws : List Path) (w : Path) :
    stackOf (ws ++ [w]) = pushWord (stackOf ws) w := foldl_concat ..

theorem mem_stackOf (hv : v ∈ stackOf ws) : v ∈ ws ∧ v ≠ text "." ∧ v ≠ text ".." := by
  induction ws using List.reverseRecOn with
  | nil => exact absurd hv not_mem_nil
  | append_singleton _ _ ih =>
    rw [stackOf_concat, pushWord] at hv
    rw [mem_append, mem_singleton]
    split_ifs at hv with hdot hdots
    · exact (ih hv).imp_left Or.inl
    · exact (ih (dropLast_subset _ hv)).imp_left Or.inl
    · obtain hv | hv := mem_append.mp hv
      · exact (ih hv).imp_left Or.inl
      · rw [mem_singleton.mp hv]
        exact ⟨Or.inr rfl, hdot, hdots⟩

theorem names_stackOf (hw : ∀ w ∈ ws, Word w) : ∀ v ∈ stackOf ws, Name v := fun v hv =>
  ⟨hw v (mem_stackOf hv).1, (mem_stackOf hv).2⟩

theorem render_concat (stack : List Path) (w : Path) :
    render (stack ++ [w]) = stack.flatMap (byte '/' :: ·) ++ byte '/' :: w := by
  simp [render]

theorem not_slash (hw : Word w) : byte '/' ∉ w := fun h => absurd (hw.2 _ h) (by decide)

section

variable (hs : ∀ v ∈ stack, Name v)
include hs

theorem popComponent_render : popComponent (render stack) = render stack.dropLast := by
  induction stack using List.reverseRecOn with
  | nil => decide
  | append_singleton stack w =>
    have hw : ∀ c ∈ w.reverse, (!decide (c = byte '/')) := by
      intro c hc
      have hword := (hs w (mem_append_right _ mem_cons_self)).1
      simpa using fun h : c = byte '/' => not_slash hword (h ▸ mem_reverse.mp hc)
    rw [dropLast_concat, render_concat, popComponent]
    cases stack with
    | nil => simp [dropWhile_eq_nil_iff.mpr hw, render, text]
    | cons => simp [dropWhile_append_of_pos hw, render]

theorem getLast?_render (hne : stack ≠ []) : (render stack).getLast? ≠ some (byte '/') := by
  obtain hnil | ⟨_, v, rfl⟩ := stack.eq_nil_or_concat'
  · exact absurd hnil hne
  have hword := (hs v (mem_append_right _ mem_cons_self)).1
  obtain hnil | ⟨_, _, rfl⟩ := v.eq_nil_or_concat'
  · exact absurd hnil hword.1
  rw [render_concat, ← cons_append, ← append_assoc, List.getLast?_concat]
  exact fun h => not_slash hword (Option.some.inj h ▸ mem_append_right _ mem_cons_self)

theorem pushComponent_render (hfit : (render (stack ++ [w])).length < size) :
    pushComponent size (render stack) w = render (stack ++ [w]) := by
  rw [pushComponent]
  by_cases hnil : stack = []
  · subst hnil
    have hroom : w.length ≤ size - 1 - 1 := by simp [render] at hfit; omega
    simp [render, text, appendString, take_of_length_le hroom]
  · have hbehind : render (stack ++ [w]) = render stack ++ byte '/' :: w := by simp [render, hnil]
    rw [hbehind, length_append, length_cons] at hfit
    rw [hbehind, if_pos ⟨by omega, getLast?_render hs hnil⟩, appendString,
      take_of_length_le (by rw [length_append, length_singleton]; omega),
      append_assoc, singleton_append]

theorem normalizeStep_render (hlen : w.length ≤ 31)
    (hfit : (render (pushWord stack w)).length < size) :
    normalizeStep size (render stack) w = render (pushWord stack w) := by
  rw [normalizeStep, take_of_length_le hlen]
  rw [pushWord] at hfit ⊢
  split_ifs at hfit ⊢ with hdot hdots
  · rfl
  · exact popComponent_render hs
  · exact pushComponent_render hs hfit

end

theorem foldl_normalizeStep (hws : ∀ w ∈ ws, Word w ∧ w.length ≤ 31)
    (hfit : ∀ pre, pre <+: ws → (render (stackOf pre)).length < size) :
    ws.foldl (normalizeStep size) (text "/") = render (stackOf ws) := by
  induction ws using List.reverseRecOn with
  | nil => rfl
  | append_singleton _ w ih =>
    have hfull := hfit _ prefix_rfl
    rw [forall_mem_append, forall_mem_singleton] at hws
    rw [foldl_concat, ih hws.1 fun pre hpre => hfit pre (hpre.trans (prefix_append _ _))]
    rw [stackOf_concat] at hfull ⊢
    exact normalizeStep_render (names_stackOf fun w hw => (hws.1 w hw).1) hws.2.2 hfull

section

variable (hs : ∀ v ∈ stack, Name v)
include hs

theorem splitPath_flatMap : splitPath (stack.flatMap (byte '/' :: ·)) = stack := by
  induction stack with
  | nil => rfl
  | cons _ vs ih =>
    rw [forall_mem_cons] at hs
    obtain ⟨⟨⟨hne, hword⟩, -⟩, hvs⟩ := hs
    obtain ⟨c, cs, rfl⟩ := exists_cons_of_ne_nil hne
    have hin : ∀ x ∈ c :: cs, inComponent x := fun x hx => by rw [inComponent, hword x hx]; rfl
    -- behind a name the next separator or the end
    have hstop : (vs.flatMap (byte '/' :: ·)).takeWhile inComponent = []
        ∧ (vs.flatMap (byte '/' :: ·)).dropWhile inComponent = vs.flatMap (byte '/' :: ·) := by
      cases vs with
      | nil => exact ⟨rfl, rfl⟩
      | cons => exact ⟨takeWhile_cons_of_neg (by decide), dropWhile_cons_of_neg (by decide)⟩
    rw [flatMap_cons, cons_append, splitPath_separator (by decide), cons_append,
      splitPath_component (hword c mem_cons_self), ← cons_append,
      takeWhile_append_of_pos hin, dropWhile_append_of_pos hin, hstop.1, hstop.2,
      append_nil, ih hvs]

theorem splitPath_render : splitPath (render stack) = stack := by
  rw [render]
  split_ifs with hnil
  · rw [hnil]
    rfl
  · exact splitPath_flatMap hs

theorem stackOf_names : stackOf stack = stack := by
  induction stack using List.reverseRecOn with
  | nil => rfl
  | append_singleton _ _ ih =>
    rw [forall_mem_append, forall_mem_singleton] at hs
    rw [stackOf_concat, ih hs.1, pushWord, if_neg hs.2.2.1, if_neg hs.2.2.2]

end

/-- **NORMAL FORMS**: on a path whose components have 31 bytes at most and whose
    intermediate results fit the buffer, the result is the stack of components, written
    out, and is its own normal form. -/
theorem normalize_reference (input : Path) (hlen : ∀ w ∈ splitPath input, w.length ≤ 31)
    (hfit : ∀ pre, pre <+: splitPath input → (render (stackOf pre)).length < size) :
    normalizeAbsolutePath size input = render (stackOf (splitPath input))
      ∧ (∀ w ∈ stackOf (splitPath input), Name w)
      ∧ (normalizeAbsolutePath size input).head? = some (byte '/')
      ∧ (normalizeAbsolutePath size input ≠ text "/" →
        (normalizeAbsolutePath size input).getLast? ≠ some (byte '/'))
      ∧ normalizeAbsolutePath size (normalizeAbsolutePath size input)
        = normalizeAbsolutePath size input := by
  have hnorm : ∀ path : Path, (∀ w ∈ splitPath path, w.length ≤ 31) →
      (∀ pre, pre <+: splitPath path → (render (stackOf pre)).length < size) →
      normalizeAbsolutePath size path = render (stackOf (splitPath path)) := by
    intro path hlen hfit
    obtain ⟨heq, hwords⟩ := pathWords_eq path.length path (Nat.le_refl _)
    rw [normalizeAbsolutePath, heq]
    exact foldl_normalizeStep (fun w hw => ⟨hwords w hw, hlen w hw⟩) hfit
  have hnames := names_stackOf (pathWords_eq input.length input (Nat.le_refl _)).2
  have hagain := splitPath_render hnames
  rw [hnorm input hlen hfit]
  refine ⟨rfl, hnames, ?_, fun hroot => getLast?_render hnames fun h => ?_, ?_⟩
  · rw [render]
    cases stackOf (splitPath input) <;> rfl
  · rw [h] at hroot
    exact hroot rfl
  rw [hnorm, hagain, stackOf_names hnames]
  · rw [hagain]
    exact fun w hw => hlen w (mem_stackOf hw).1
  · rw [hagain]
    rintro pre ⟨rest, hrest⟩
    rw [stackOf_names fun w hw => hnames w (hrest ▸ mem_append_left rest hw)]
    by_cases hnil : pre = []
    · rw [hnil]
      exact hfit [] nil_prefix
    · have hfull := hfit _ prefix_rfl
      rw [← hrest, render, if_neg (by simp [hnil]), flatMap_append, length_append] at hfull
      rw [render, if_neg hnil]
      omega

theorem normalize_reference_dots :
    normalizeAbsolutePath 64 (text "/a/./b\\../c/") = text "/a/c" := by
  refine (normalize_reference (text "/a/./b\\../c/") (by decide) fun pre hpre => ?_).1.trans
    (by decide)
  revert pre
  simp only [← mem_inits]
  decide

end ConsolePath
