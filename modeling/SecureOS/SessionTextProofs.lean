import SecureOS.Lib.MachineRunProofs
import SecureOS.Lib.PaintProofs
import SecureOS.SessionIoModel

/-! # The text cursor of a session

`session_manager_vfb_putchar` keeps the cursor inside the text columns and rows of the
framebuffer, and with it every pixel that is drawn or scrolled inside the buffer, as long as
there is room for one character.  `session_manager_set_vfb_size` admits sizes down to one
pixel. -/

namespace SessionIo

open Capability VfbFont Provenance MachineRun Paint List

/-- The pixels `vfb_font_draw_char` sets, as indexes of the buffer. -/
def drawIndexes (stride : Nat) (px py : Int) (ch : Char) : List Int :=
  (range fontH).flatMap fun (row : Nat) =>
    if py + row < 0 ∨ 200 ≤ py + row then []
    else ((range fontW).filter fun (col : Nat) => ((glyph ch).getD row 0).testBit (4 - col) = true
        ∧ 0 ≤ px + col ∧ px + col < stride).map fun (col : Nat) => (py + row) * stride + (px + col)

theorem vfbFontDrawChar_eq (owner : Owner) (buffer : Int) (stride : Nat) (px py : Int) (ch : Char)
    (color : Nat) (mem : Pixels) : vfbFontDrawChar owner buffer stride px py ch color mem =
    (drawIndexes stride px py ch).foldl (fun mem k => write mem (buffer + k) owner color) mem := by
  rw [vfbFontDrawChar, drawIndexes, foldl_flatMap]
  congr 1
  funext mem row
  split
  next h => rw [if_pos h]; rfl
  next h => rw [if_neg h, foldl_map, foldl_filter]; simp

/-- The indexes `vfb_scroll_up` reads and writes. -/
def scrollIndexes (vfbW vfbH : Nat) : List Int :=
  let shiftBytes := (fontH + fontSpacing) * vfbW
  let totalBytes := vfbW * vfbH
  ((range (totalBytes - shiftBytes)).flatMap fun (i : Nat) => [(i : Int), i + shiftBytes])
    ++ (range shiftBytes).map fun (j : Nat) => (totalBytes : Int) - shiftBytes + j

/-- The indexes that are drawn for a character, with the cursor where it is before. -/
def charIndexes (vfbW : Nat) (cursor : Cursor) (ch : Char) : List Int :=
  let draw := fun (col : Nat) (c : Char) =>
    drawIndexes vfbW (col * (fontW + fontSpacing)) (cursor.row * (fontH + fontSpacing)) c
  if ch = '\n' ∨ ch = '\r' ∨ ch = '\t' then []
  else if ch = '\x08' ∨ ch = '\x7F' then if 0 < cursor.col then draw (cursor.col - 1) ' ' else []
  else draw cursor.col ch

/-- The cursor and the pixels after a text. -/
def typed (owner : Owner) (buffer : Int) (vfbW vfbH : Nat) (mem : Pixels) (text : CStr) :
    Cursor × Pixels :=
  run (fun pen ch => settle buffer vfbW vfbH (placeChar owner buffer vfbW ch pen)) (⟨0, 0⟩, mem)
    text

/-- The cursor is in one of the columns of six pixels and one of the rows of eight. -/
def InText (vfbW vfbH : Nat) (cursor : Cursor) : Prop :=
  cursor.col < vfbW / 6 ∧ 0 ≤ cursor.row ∧ cursor.row < vfbH / 8

/-- An index of the framebuffer. -/
def InBuffer (vfbW vfbH : Nat) (k : Int) : Prop := 0 ≤ k ∧ k < vfbW * vfbH

variable {vfbW vfbH : Nat}

theorem placeChar_cursor (owner : Owner) (buffer : Int) (vfbW : Nat) (ch : Char)
    (pen : Cursor × Pixels) : (placeChar owner buffer vfbW ch pen).1.row = pen.1.row ∨
      (placeChar owner buffer vfbW ch pen).1 = ⟨0, pen.1.row + 1⟩ := by
  unfold placeChar
  dsimp only
  split_ifs <;> simp

/-- One character leaves the cursor in the text: it moves down one row at most, and a scroll brings
    it back. -/
theorem inText_step (h : InText vfbW vfbH pen.1) (ch : Char) :
    InText vfbW vfbH (settle buffer vfbW vfbH (placeChar owner buffer vfbW ch pen)).1 := by
  have hplace := placeChar_cursor owner buffer vfbW ch pen
  obtain ⟨hcol, hrow, hrows⟩ := h
  generalize placeChar owner buffer vfbW ch pen = placed at hplace ⊢
  generalize hc : (if placed.1.col ≥ vfbW / 6 then (⟨0, placed.1.row + 1⟩ : Cursor)
    else placed.1) = c
  have hin : c.col < vfbW / 6 ∧ 0 ≤ c.row ∧ c.row ≤ vfbH / 8 := by
    subst hc
    rcases hplace with hsame | hdown
    · split <;> simp_all <;> omega
    · rw [hdown]
      split <;> simp_all <;> omega
  have hsettle : (settle buffer vfbW vfbH placed).1
      = if c.row ≥ (vfbH / 8 : Nat) then ⟨c.col, (vfbH / 8 : Nat) - 1⟩ else c := by
    rw [← hc]
    exact apply_ite Prod.fst _ _ _
  rw [hsettle, InText]
  split
  · dsimp only
    omega
  · omega

theorem drawIndexes_inBuffer {row : Int} (hcol : col < vfbW / 6)
    (hrow : 0 ≤ row ∧ row < vfbH / 8) (ch : Char) :
    ∀ k ∈ drawIndexes vfbW (col * (fontW + fontSpacing)) (row * (fontH + fontSpacing)) ch,
      InBuffer vfbW vfbH k := by
  intro k hk
  obtain ⟨row, rfl⟩ := Int.eq_ofNat_of_zero_le hrow.1
  obtain ⟨r, hr, hk⟩ := mem_flatMap.mp hk
  split at hk
  · cases hk
  obtain ⟨c, hc, rfl⟩ := mem_map.mp hk
  have hc := mem_range.mp (mem_filter.mp hc).1
  have hr := mem_range.mp hr
  have hlt : (row * 8 + r) * vfbW + (col * 6 + c) < vfbW * vfbH := by
    rw [fontH] at hr
    rw [fontW] at hc
    exact pixel_lt (by omega) (by omega)
  exact ⟨Int.natCast_nonneg ((row * 8 + r) * vfbW + (col * 6 + c)), mod_cast hlt⟩

theorem charIndexes_inBuffer (h : InText vfbW vfbH cursor) (ch : Char) :
    ∀ k ∈ charIndexes vfbW cursor ch, InBuffer vfbW vfbH k := by
  fun_cases charIndexes vfbW cursor ch with
  | case1 | case3 => exact fun k hk => absurd hk not_mem_nil
  | case2 => exact drawIndexes_inBuffer (Nat.lt_of_le_of_lt (Nat.sub_le _ 1) h.1) h.2 ' '
  | case4 => exact drawIndexes_inBuffer h.1 h.2 ch

theorem scrollIndexes_inBuffer (h : 8 ≤ vfbH) :
    ∀ k ∈ scrollIndexes vfbW vfbH, InBuffer vfbW vfbH k := by
  have hle : 8 * vfbW ≤ vfbW * vfbH := by
    rw [Nat.mul_comm vfbW]
    exact Nat.mul_le_mul_right vfbW h
  intro k hk
  unfold InBuffer
  rcases mem_append.mp hk with hk | hk
  · obtain ⟨i, hi, hk⟩ := mem_flatMap.mp hk
    have hi : i < vfbW * vfbH - 8 * vfbW := mem_range.mp hi
    rcases mem_cons.mp hk with rfl | hk
    · omega
    · obtain rfl : k = i + (8 * vfbW : Nat) := mem_singleton.mp hk
      omega
  · obtain ⟨j, hj, rfl⟩ := mem_map.mp hk
    have hj : j < 8 * vfbW := mem_range.mp hj
    show 0 ≤ ((vfbW * vfbH : Nat) : Int) - (8 * vfbW : Nat) + j
      ∧ ((vfbW * vfbH : Nat) : Int) - (8 * vfbW : Nat) + j < _
    omega

/-- Placing a character writes at `charIndexes`, in one colour. -/
theorem placeChar_pixels (owner : Owner) (buffer : Int) (vfbW : Nat) (ch : Char)
    (pen : Cursor × Pixels) : ∃ color, (placeChar owner buffer vfbW ch pen).2
      = (charIndexes vfbW pen.1 ch).foldl (fun mem k => write mem (buffer + k) owner color)
          pen.2 := by
  by_cases hback : ch = '\x08' ∨ ch = '\x7F'
  · refine ⟨vfbBgColor, ?_⟩
    rcases hback with rfl | rfl <;> by_cases hcol : 0 < pen.1.col
    all_goals simp [placeChar, charIndexes, vfbFontDrawChar_eq, hcol]
  · refine ⟨vfbFgColor, ?_⟩
    unfold placeChar charIndexes
    simp only [vfbFontDrawChar_eq, hback, if_false]
    split_ifs <;> simp_all

theorem foldl_frame {l : List B}
    (h : ∀ b ∈ l, ∀ mem, f mem b a = mem a) (mem : Pixels) : l.foldl f mem a = mem a := by
  induction l generalizing mem with
  | nil => rfl
  | cons b l ih =>
    rw [foldl_cons, ih fun b' hb' => h b' (mem_cons_of_mem b hb')]
    exact h b mem_cons_self mem

/-- A scroll changes nothing but the cells at `scrollIndexes`. -/
theorem vfbScrollUp_frame (ha : ∀ k ∈ scrollIndexes vfbW vfbH, a ≠ buffer + k) (mem : Pixels) :
    vfbScrollUp buffer vfbW vfbH mem a = mem a := by
  have hclear : ¬ (buffer + (((vfbW * vfbH : Nat) : Int) - ((fontH + fontSpacing) * vfbW : Nat)) ≤ a
      ∧ a < buffer + (vfbW * vfbH : Nat)) := by
    rintro ⟨hlow, hhigh⟩
    obtain ⟨j, hj⟩ := Int.eq_ofNat_of_zero_le (Int.sub_nonneg.mpr hlow)
    exact ha _ (mem_append_right _ (mem_map.mpr ⟨j, mem_range.mpr (by omega), rfl⟩)) (by omega)
  rw [vfbScrollUp, wipe, if_neg (by simpa using hclear)]
  refine foldl_frame (fun i hi mem => ?_) mem
  exact Function.update_of_ne
    (ha i (mem_append_left _ (mem_flatMap.mpr ⟨i, hi, mem_cons_self⟩))) _ mem

/-- **NOTHING OUTSIDE THE FRAMEBUFFER**: with room for a character, a text leaves the cursor in the
    text and changes no cell that is not the buffer's. -/
theorem typed_inside (hw : 6 ≤ vfbW) (hh : 8 ≤ vfbH) (mem : Pixels) (text : CStr) :
    InText vfbW vfbH (typed owner buffer vfbW vfbH mem text).1
      ∧ ∀ a, (∀ k, InBuffer vfbW vfbH k → a ≠ buffer + k) →
          (typed owner buffer vfbW vfbH mem text).2 a = mem a := by
  refine run_inv_all (I := fun pen : Cursor × Pixels => InText vfbW vfbH pen.1
    ∧ ∀ a, (∀ k, InBuffer vfbW vfbH k → a ≠ buffer + k) → pen.2 a = mem a) ?_ text (⟨0, 0⟩, mem)
    ⟨show 0 < vfbW / 6 ∧ (0 : Int) ≤ 0 ∧ (0 : Int) < vfbH / 8 by omega, fun a _ => rfl⟩
  rintro pen ch ⟨hin, hframe⟩
  refine ⟨inText_step hin ch, fun a ha => ?_⟩
  have hplaced : (placeChar owner buffer vfbW ch pen).2 a = mem a := by
    obtain ⟨color, hpixels⟩ := placeChar_pixels owner buffer vfbW ch pen
    rw [hpixels, ← hframe a ha]
    exact foldl_frame (fun k hk mem =>
      Function.update_of_ne (ha k (charIndexes_inBuffer hin ch k hk)) _ mem) pen.2
  have hscroll := vfbScrollUp_frame (fun k hk => ha k (scrollIndexes_inBuffer hh k hk))
    (placeChar owner buffer vfbW ch pen).2
  rw [← hplaced, settle]
  split_ifs
  all_goals first | exact hscroll | rfl

/-- **THE TEXT CURSOR**, for every size that can be set. -/
theorem text_in_framebuffer_iff (owner : Owner) (buffer : Int) (mem : Pixels)
    (width height : BitVec 32) :
    let vfbW := min width.toNat 320
    let vfbH := min height.toNat 200
    ((∀ text ch, InText vfbW vfbH (typed owner buffer vfbW vfbH mem text).1
        ∧ ∀ k ∈ charIndexes vfbW (typed owner buffer vfbW vfbH mem text).1 ch, InBuffer vfbW vfbH k)
      ∧ ∀ k ∈ scrollIndexes vfbW vfbH, InBuffer vfbW vfbH k)
    ↔ 6 ≤ width.toNat ∧ 8 ≤ height.toNat := by
  intro vfbW vfbH
  constructor
  · rintro ⟨htext, -⟩
    obtain ⟨hcol, -, hrow⟩ : 0 < vfbW / 6 ∧ (0 : Int) ≤ 0 ∧ (0 : Int) < vfbH / 8 := (htext [] ' ').1
    omega
  · rintro ⟨hw, hh⟩
    refine ⟨fun text ch => ?_, scrollIndexes_inBuffer (by omega)⟩
    have hin : InText vfbW vfbH (typed owner buffer vfbW vfbH mem text).1 :=
      (typed_inside (by omega) (by omega) mem text).1
    exact ⟨hin, charIndexes_inBuffer hin ch⟩

/-- One character in a framebuffer of one pixel: the scroll clears a byte in front of it. -/
theorem scroll_before_buffer : (-1 : Int) ∈ scrollIndexes 1 1 ∧
    (typed (0, 0) 0 1 1 (fun _ => ⟨7, none⟩) ['a']).2 (-1) = ⟨vfbBgColor, none⟩ := by
  decide

end SessionIo
