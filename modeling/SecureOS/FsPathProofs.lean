import SecureOS.FsDeviceProofs
import SecureOS.Lib.WordsProofs

/-! # Path resolution

The components of a path are the non-empty runs between separators.  The loops of
the resolution go through them as long as each one fits the buffer of sixteen
bytes; the first one that does not fit ends the loops as the end of the path does. -/

namespace Fs

open Sof (Byte)
open List Words

/-! ## The components of a path -/

/-- The non-empty components of a path. -/
def splitPath (path : List Byte) : List (List Byte) :=
  (path.splitOnP fsPathIsSeparator).filter (fun w => w != [])

/-- The bytes of a component. -/
def inComponent (c : Byte) : Bool := !fsPathIsSeparator c

theorem splitPath_separator (hc : fsPathIsSeparator c) (cs : List Byte) :
    splitPath (c :: cs) = splitPath cs := words_separator hc cs

theorem splitPath_skip (path : List Byte) :
    splitPath (fsSkipPathSeparators path) = splitPath path := words_skip path

variable {path : List Byte}

theorem mem_takeWhile_inComponent (hx : x ∈ path.takeWhile inComponent) :
    fsPathIsSeparator x = false := mem_takeWhile_not hx

/-- A path that starts inside a component: the component and the rest. -/
theorem splitPath_component (hc : fsPathIsSeparator c = false) (cs : List Byte) :
    splitPath (c :: cs) = (c :: cs).takeWhile inComponent
      :: splitPath ((c :: cs).dropWhile inComponent) := words_word hc cs

/-- The next component a loop finds, and what is left of the path behind it. -/
theorem splitPath_step (hcur : fsSkipPathSeparators path = c :: cs) :
    splitPath path = (c :: cs).takeWhile inComponent :: splitPath ((c :: cs).dropWhile inComponent)
      ∧ ((c :: cs).dropWhile inComponent).length < path.length := by
  have hc : fsPathIsSeparator c = false := by
    have hstop := List.head?_dropWhile_not fsPathIsSeparator path
    rw [← fsSkipPathSeparators, hcur] at hstop
    exact hstop
  have hskip : (fsSkipPathSeparators path).length ≤ path.length := (dropWhile_sublist _).length_le
  have hle := (dropWhile_sublist inComponent (l := cs)).length_le
  rw [hcur, length_cons] at hskip
  rw [← splitPath_skip, hcur, splitPath_component hc]
  refine ⟨rfl, ?_⟩
  rw [dropWhile_cons_of_pos (by rw [inComponent, hc]; rfl)]
  omega

/-! ## The components the loops go through -/

theorem fsCopyComponent_eq (room : Nat) (cursor : List Byte) :
    fsCopyComponent room cursor = if (cursor.takeWhile inComponent).length ≤ room
      then some (cursor.takeWhile inComponent, cursor.dropWhile inComponent) else none := by
  fun_induction fsCopyComponent room cursor with
  | case1 => exact (if_pos (Nat.zero_le _)).symm
  | case2 _ _ hc | case3 _ _ hc | case4 _ _ _ hc => simp [inComponent, hc]
  | case5 _ c _ hc ih =>
    have hin : inComponent c := by rw [inComponent, Bool.eq_false_iff.mpr hc]; rfl
    rw [ih, takeWhile_cons_of_pos hin, dropWhile_cons_of_pos hin, length_cons,
      apply_ite (Option.map _), Nat.succ_eq_add_one]
    simp only [Nat.add_le_add_iff_right]
    rfl

/-- The component fits the buffer, with its end. -/
def fits (w : List Byte) : Bool := w.length ≤ 15

theorem fsPathComponentsFrom_eq (fuel : Nat) (cursor : List Byte) (h : cursor.length ≤ fuel) :
    fsPathComponentsFrom fuel cursor = (splitPath cursor).takeWhile fits := by
  induction fuel generalizing cursor with
  | zero =>
    rw [length_eq_zero_iff.mp (Nat.le_zero.mp h)]
    rfl
  | succ _ ih =>
    rw [fsPathComponentsFrom, fsNextPathComponent]
    cases hcur : fsSkipPathSeparators cursor with
    | nil =>
      rw [← splitPath_skip, hcur]
      rfl
    | cons c cs =>
      obtain ⟨hsplit, _⟩ := splitPath_step hcur
      rw [hsplit]
      dsimp only
      rw [fsCopyComponent_eq]
      by_cases hfit : ((c :: cs).takeWhile inComponent).length ≤ 15
      · rw [if_pos hfit, takeWhile_cons_of_pos (p := fits) (decide_eq_true hfit)]
        exact congrArg (_ :: ·) (ih _ (by omega))
      · rw [if_neg hfit,
          takeWhile_cons_of_neg (p := fits) (by rw [fits, decide_eq_true_eq]; exact hfit)]

/-- **THE LOOPS** go through the components before the first one that does not fit. -/
theorem fsPathComponents_eq (path : List Byte) :
    fsPathComponents path = (splitPath path).takeWhile fits :=
  fsPathComponentsFrom_eq path.length path (Nat.le_refl _)

theorem fsPathComponents_of_fits (h : ∀ w ∈ splitPath path, fits w) :
    fsPathComponents path = splitPath path := by
  rw [fsPathComponents_eq]
  exact takeWhile_eq_self_iff.mpr h

/-! ## The resolution -/

theorem slotAt_entry (h : slotAt b off = .entry e) : entryAt b off = e := by
  rw [slotAt] at h
  split_ifs at h
  exact Slot.entry.inj h

/-- The loop with the pending leaf is the resolution of all components but the last. -/
theorem fsResolveLoop_eq (w : List Byte)
    (h : leaf :: rest = ws ++ [w]) : fsResolveLoop dev rest c (some leaf)
      = (ws.foldlM (fsStepInto dev) c).map (fun d => (d, some w)) := by
  induction ws generalizing leaf c rest with
  | nil =>
    cases h
    rfl
  | cons _ _ ih =>
    obtain ⟨rfl, hrest⟩ := cons_eq_cons.mp h
    cases rest with
    | nil => simp at hrest
    | cons =>
      rw [fsResolveLoop, foldlM_cons]
      cases fsStepInto dev c leaf with
      | error => rfl
      | ok => exact ih hrest

theorem fsResolveParentAndLeaf_eq (hcomps : fsPathComponents path = ws ++ [w]) :
    fsResolveParentAndLeaf dev path = (ws.foldlM (fsStepInto dev) 2).bind (fun d =>
      (fsParse83Name w).elim (.error .invalidArg) (fun name => .ok (d, name))) := by
  rw [fsResolveParentAndLeaf, hcomps]
  obtain ⟨leaf, rest, hcons⟩ := exists_cons_of_ne_nil (append_ne_nil_of_right_ne_nil ws
    (cons_ne_nil w []))
  rw [hcons, fsResolveLoop, fsResolveLoop_eq w hcons.symm]
  cases ws.foldlM (fsStepInto dev) 2 with
  | error => rfl
  | ok =>
    dsimp only [Except.map, Except.bind]
    cases fsParse83Name w <;> rfl

end Fs
