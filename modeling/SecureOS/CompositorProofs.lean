import SecureOS.CompositorModel
import SecureOS.SessionIoModel
import SecureOS.Lib.PaintProofs

/-! # What a window shows

A point of the content area that nothing above covers shows what the drawing of its own window
put there (`screen_at`).  That is a pixel of the window's own session as long as the session's
framebuffer has the part that is asked for (`AskedInside`): what it does not fill of the shared
transfer buffer shows what another session left there. -/

namespace Compositor

open Capability VfbFont BubbleSort MachineRun Paint List

/-! ## Regions -/

theorem fillRect_paintsIn (x y w h : Int) (color : Nat) :
    PaintsIn (inRect x y w h) (fillRect x y w h color) :=
  fun _ _ hp => if_neg (fun h => hp h.1)

theorem fontDrawChar_paintsIn (px py : Int) (ch : Char) (color : Nat) :
    PaintsIn (inRect px py 5 7) (fontDrawChar px py ch color) :=
  fun _ _ hp => if_neg (fun h => hp h.1)

/-- The box of a string: six points a character, of which the last is empty. -/
theorem fontDrawString_paintsIn (str : CStr) (px py : Int) (color : Nat) :
    PaintsIn (inRect px py (6 * str.length - 1) 7) (fontDrawString px py color str) := by
  induction str generalizing px with
  | nil => exact fun _ _ _ => rfl
  | cons ch str ih =>
    have hchar : PaintsIn (inRect px py (6 * (ch :: str).length - 1) 7)
        (fontDrawChar px py ch color) := by
      refine (fontDrawChar_paintsIn px py ch color).mono ?_
      rintro _ ⟨hx, _, hy⟩
      refine ⟨hx, ?_, hy⟩
      rw [length_cons]
      omega
    have hrest : PaintsIn (inRect px py (6 * (ch :: str).length - 1) 7)
        (fontDrawString (px + 6) py color str) := by
      refine (ih (px + 6)).mono ?_
      rintro _ ⟨_, _, hy⟩
      refine ⟨by omega, ?_, hy⟩
      rw [length_cons]
      omega
    exact hchar.comp hrest

/-- The clipped pixels are those of the span that are on the screen. -/
theorem clip_iff (pos : Int) (len : Nat) (limit q : Int) :
    ((clip pos len limit).dst ≤ q ∧ q < (clip pos len limit).dst + (clip pos len limit).count)
      ↔ (pos ≤ q ∧ q < pos + len) ∧ 0 ≤ q ∧ q < limit := by
  unfold clip
  dsimp only
  split_ifs <;> dsimp only at * <;> omega

/-- A pixel is taken from as far into the source as it is into the span. -/
theorem clip_src (pos : Int) (len : Nat) (limit q : Int) :
    (clip pos len limit).src + (q - (clip pos len limit).dst) = q - pos := by
  unfold clip
  dsimp only
  split_ifs <;> dsimp only <;> omega

/-- The copy shows the part of the rectangle that is on the screen, each pixel at its place. -/
theorem copyContent_apply (cx cy : Int) (vfbW vfbH : Nat) (bulk : Bulk) (c : Canvas) (p : Point) :
    copyContent cx cy vfbW vfbH bulk c p = if inRect cx cy vfbW vfbH p ∧ onScreen p
        then bulk ((p.2 - cy) * vfbW + (p.1 - cx)).toNat else c p := by
  have hx := clip_iff cx vfbW 320 p.1
  have hy := clip_iff cy vfbH 200 p.2
  have hiff : inRect (clip cx vfbW 320).dst (clip cy vfbH 200).dst (clip cx vfbW 320).count
      (clip cy vfbH 200).count p ↔ inRect cx cy vfbW vfbH p ∧ onScreen p := by
    constructor
    · rintro ⟨hl, hr, ht, hb⟩
      obtain ⟨hinx, honx⟩ := hx.mp ⟨hl, hr⟩
      obtain ⟨hiny, hony⟩ := hy.mp ⟨ht, hb⟩
      exact ⟨⟨hinx.1, hinx.2, hiny⟩, honx.1, honx.2, hony⟩
    · rintro ⟨⟨hl, hr, hiny⟩, hl0, hr0, hony⟩
      have hinx := hx.mpr ⟨⟨hl, hr⟩, hl0, hr0⟩
      exact ⟨hinx.1, hinx.2, hy.mpr ⟨hiny, hony⟩⟩
  unfold copyContent
  rw [clip_src, clip_src]
  exact if_congr hiff rfl rfl

theorem copyContent_paintsIn (cx cy : Int) (vfbW vfbH : Nat) (bulk : Bulk) :
    PaintsIn (inRect cx cy vfbW vfbH) (copyContent cx cy vfbW vfbH bulk) := by
  intro _ _ hp
  rw [copyContent_apply]
  exact if_neg (fun h => hp h.1)

/-! ## One window -/

/-- The title and the button stay inside the frame. -/
def TitleFits (w : Window) : Prop := 10 ≤ w.width ∧ 6 * w.title.length + 2 ≤ w.width

instance (w : Window) : Decidable (TitleFits w) := inferInstanceAs (Decidable (_ ∧ _))

variable {w : Window}

theorem drawFrame_paintsIn (hfits : TitleFits w) : PaintsIn w.inFrame (drawFrame w) := by
  obtain ⟨_, _⟩ := hfits
  have hhigh := w.high
  have hcw : w.contentW = w.width - 2 := rfl
  have hch : w.contentH = w.height - 11 := rfl
  -- each rectangle drawn is part of the frame
  have hsub : ∀ {x y w' h' : Int} {f : Canvas → Canvas}, PaintsIn (inRect x y w' h') f →
      w.x ≤ x ∧ x + w' ≤ w.x + w.width ∧ w.y ≤ y ∧ y + h' ≤ w.y + w.height →
      PaintsIn w.inFrame f := by
    intro _ _ _ _ _ hf hin
    refine hf.mono ?_
    rintro _ ⟨_, _, _, _⟩
    exact ⟨by omega, by omega, by omega, by omega⟩
  have hborder := hsub (fillRect_paintsIn w.x w.y w.width w.height colorBorder) (by omega)
  have hbar := hsub (fillRect_paintsIn (w.x + 1) (w.y + 1) (w.width - 2) 9
    (if w.focused then colorTitlebar else colorTitlebarUf)) (by omega)
  have htext := hsub (fontDrawString_paintsIn w.title (w.x + 3) (w.y + 2) colorTitleText) (by omega)
  have hbutton := hsub (fillRect_paintsIn (w.x + w.width - 10) (w.y + 1) 8 9 colorCloseBtn)
    (by omega)
  have hcross := hsub (fontDrawChar_paintsIn (w.x + w.width - 9) (w.y + 2) 'X' colorTitleText)
    (by omega)
  have hclear := hsub (fillRect_paintsIn (w.x + 1) (w.y + 10) w.contentW w.contentH colorContentBg)
    (by omega)
  exact ((((hborder.comp hbar).comp htext).comp hbutton).comp hcross).comp hclear

theorem paintWindow_paintsIn (hfits : TitleFits w) (fb : Option Vfb) (bulk : Bulk) :
    PaintsIn w.inFrame (paintWindow w fb bulk) := by
  cases fb with
  | none => exact drawFrame_paintsIn hfits
  | some v =>
    have hw : w.vfbW ≤ w.width - 2 := Nat.min_le_left _ _
    have hh : w.vfbH ≤ w.height - 11 := Nat.min_le_left _ _
    have hcopy : PaintsIn w.inFrame (copyContent (w.x + 1) (w.y + 10) w.vfbW w.vfbH
        (readVfb v w.vfbW w.vfbH bulk)) := by
      refine (copyContent_paintsIn (w.x + 1) (w.y + 10) w.vfbW w.vfbH _).mono ?_
      rintro _ ⟨_, _, _, _⟩
      exact ⟨by omega, by omega, by omega, by omega⟩
    exact (drawFrame_paintsIn hfits).comp hcopy

/-- What a window shows at a point of its content: its framebuffer's pixel, or the background where
    nothing is asked for. -/
def contentValue (w : Window) (fb : Option Vfb) (p : Point) : Nat :=
  match fb with
  | none => colorContentBg
  | some v =>
    let cx := (p.1 - (w.x + 1)).toNat
    let cy := (p.2 - (w.y + 10)).toNat
    if cx < 320 ∧ cy < 200 then v.pixels (cy * v.width + cx) else colorContentBg

/-- The framebuffer of the session has all of the part that `draw_window` asks for. -/
def AskedInside (w : Window) (fb : Option Vfb) : Prop :=
  ∀ v, fb = some v → w.vfbW ≤ v.width ∧ w.vfbH ≤ v.height

/-- The transfer buffer at a pixel of a part that the framebuffer has: whatever was there before is
    overwritten. -/
theorem readVfb_at {w h : Nat} (hw : w ≤ v.width) (hh : h ≤ v.height) (bulk : Bulk)
    {cx cy : Nat} (hcx : cx < w) (hcy : cy < h) :
    readVfb v w h bulk (cy * w + cx) = v.pixels (cy * v.width + cx) := by
  have hwpos : 0 < w := Nat.lt_of_le_of_lt (Nat.zero_le cx) hcx
  have hdiv : (cy * w + cx) / w = cy := by
    rw [Nat.add_comm, Nat.add_mul_div_right _ _ hwpos, Nat.div_eq_of_lt hcx, Nat.zero_add]
  have hmod : (cy * w + cx) % w = cx := by
    rw [Nat.add_comm, Nat.add_mul_mod_self_right, Nat.mod_eq_of_lt hcx]
  unfold readVfb
  rw [Nat.min_eq_left hw, Nat.min_eq_left hh, hdiv, hmod]
  exact if_pos (pixel_lt hcy hcx)

variable {p : Point}

theorem drawFrame_content (hp : w.inContent p) (hscreen : onScreen p) (c : Canvas) :
    drawFrame w c p = colorContentBg :=
  if_pos ⟨hp, hscreen⟩

/-- **WHAT A WINDOW SHOWS**: where the framebuffer has what is asked for, the drawing puts its
    pixel, or the background, at every point of the content area. -/
theorem paintWindow_content (hinside : AskedInside w fb) (bulk : Bulk)
    (hp : w.inContent p) (hscreen : onScreen p) (c : Canvas) :
    paintWindow w fb bulk c p = contentValue w fb p := by
  cases fb with
  | none => exact drawFrame_content hp hscreen c
  | some v =>
    obtain ⟨hwidth, hheight⟩ := hinside v rfl
    obtain ⟨hl, hr, ht, hb⟩ := hp
    obtain ⟨cx, hcx⟩ := Int.eq_ofNat_of_zero_le (Int.sub_nonneg.mpr hl)
    obtain ⟨cy, hcy⟩ := Int.eq_ofNat_of_zero_le (Int.sub_nonneg.mpr ht)
    have hcw : cx < w.contentW := by omega
    have hch : cy < w.contentH := by omega
    have hidx : ((p.2 - (w.y + 10)) * w.vfbW + (p.1 - (w.x + 1))).toNat = cy * w.vfbW + cx := by
      rw [hcx, hcy]
      norm_cast
    have hin : inRect (w.x + 1) (w.y + 10) w.vfbW w.vfbH p ↔ cx < 320 ∧ cy < 200 := by
      have hvw : w.vfbW = min w.contentW 320 := rfl
      have hvh : w.vfbH = min w.contentH 200 := rfl
      unfold inRect
      omega
    unfold paintWindow contentValue
    dsimp only
    rw [copyContent_apply, hidx, hcx, hcy, drawFrame_content ⟨hl, hr, ht, hb⟩ hscreen c]
    by_cases hask : cx < 320 ∧ cy < 200
    · have hxw : cx < w.vfbW := Nat.lt_min.mpr ⟨hcw, hask.1⟩
      have hyh : cy < w.vfbH := Nat.lt_min.mpr ⟨hch, hask.2⟩
      rw [if_pos ⟨hin.mpr hask, hscreen⟩, readVfb_at hwidth hheight bulk hxw hyh]
      exact (if_pos hask).symm
    · rw [if_neg (fun h => hask (hin.mp h.1))]
      exact (if_neg hask).symm

/-! ## A frame -/

/-- The windows that are drawn are the active ones. -/
theorem mem_drawOrder : i ∈ drawOrder t ↔ (t i).active := by
  unfold drawOrder
  rw [(bubbleSort_perm _ _).mem_iff, mem_filter]
  exact and_iff_right (mem_finRange i)

/-- A window is drawn after those that are lower. -/
theorem drawOrder_sorted (t : Table) :
    (drawOrder t).Pairwise (fun i j => (t i).zOrder.toInt ≤ (t j).zOrder.toInt) :=
  bubbleSort_sorted _ _

/-- Windows whose frames do not hold a point leave it alone. -/
theorem drawSteps_outside (is : List (Fin 4)) (st : Canvas × Bulk)
    (hfits : ∀ j ∈ is, TitleFits (t j)) (hout : ∀ j ∈ is, ¬ (t j).inFrame p) :
    (run (drawStep t fb) st is).1 p = st.1 p := by
  induction is generalizing st with
  | nil => rfl
  | cons j _ ih =>
    rw [run_cons, ih _ (fun k hk => hfits k (mem_cons_of_mem j hk))
      (fun k hk => hout k (mem_cons_of_mem j hk))]
    unfold drawStep drawWindow
    split
    · exact paintWindow_paintsIn (hfits j mem_cons_self) (fb j) st.2 st.1 p (hout j mem_cons_self)
    · rfl

/-- What is on the screen at a point of a window that nothing drawn later covers. -/
structure Visible (m : Manager) (dialog : Point → Option Nat) (mx my : Int) (above : List (Fin 4))
    (p : Point) : Prop where
  screen : onScreen p
  above : ∀ j ∈ above, ¬ (m.table j).inFrame p
  dialog : dialog p = none
  quit : ¬ inRect 296 0 24 10 p
  cursor : ¬ onCursor mx my p

/-- The dialog, the button and the cursor leave a visible point alone. -/
theorem compositorRender_visible (hvis : Visible m dialog mx my above p) :
    (compositorRender m fb dialog mx my).screen p = (drawWindows m fb).1 p := by
  have hcursor : ¬ (onCursor mx my p ∧ onScreen p) := fun h => hvis.cursor h.1
  have htext : ¬ inRect 298 2 (6 * (['Q', 'u', 'i', 't'] : CStr).length - 1) 7 p := by
    rintro ⟨_, _, _, _⟩
    have hscreen := hvis.screen.2.1
    exact hvis.quit ⟨by omega, by omega, by omega, by omega⟩
  unfold compositorRender
  dsimp only
  rw [drawCursor, if_neg hcursor, drawQuit, fontDrawString_paintsIn _ 298 2 _ _ p htext,
    fillRect_paintsIn 296 0 24 10 _ _ p hvis.quit, overlay, hvis.dialog]
  rfl

/-- What a frame shows at a visible point of the content area of a window. -/
theorem screen_at (horder : drawOrder m.table = below ++ i :: above)
    (hfits : ∀ j ∈ above, TitleFits (m.table j)) (hinside : AskedInside (m.table i) (fb i))
    (hvis : Visible m dialog mx my above p) (hin : (m.table i).inContent p) :
    (compositorRender m fb dialog mx my).screen p = contentValue (m.table i) (fb i) p := by
  have hactive : (m.table i).active :=
    mem_drawOrder.mp (horder ▸ mem_append_right below mem_cons_self)
  rw [compositorRender_visible hvis, drawWindows, horder, run_append, run_cons,
    drawSteps_outside above _ hfits hvis.above]
  unfold drawStep drawWindow
  rw [if_pos hactive]
  exact paintWindow_content hinside _ hin hvis.screen _

/-- **A WINDOW SHOWS ITS OWN SESSION**: where the framebuffer of the session has the part that is
    asked for and the windows above have room for their titles, a visible point of the content area
    shows the pixel of that session at that coordinate or the background; and so it does in every
    frame of these windows, whatever the other sessions' framebuffers and the transfer buffer
    hold. -/
theorem content_shows_own_session (m : Manager) (fb : Fin 4 → Option Vfb)
    (dialog : Point → Option Nat) (mx my : Int) (i : Fin 4) (below above : List (Fin 4))
    (p : Point) (horder : drawOrder m.table = below ++ i :: above)
    (hfits : ∀ j ∈ above, TitleFits (m.table j)) (hinside : AskedInside (m.table i) (fb i))
    (hvis : Visible m dialog mx my above p) (hin : (m.table i).inContent p) :
    ((compositorRender m fb dialog mx my).screen p = colorContentBg
        ∨ ∃ v cx cy, fb i = some v ∧ cx < v.width ∧ cy < v.height
          ∧ p = ((m.table i).x + 1 + cx, (m.table i).y + 10 + cy)
          ∧ (compositorRender m fb dialog mx my).screen p = v.pixels (cy * v.width + cx))
      ∧ ∀ (m' : Manager) (fb' : Fin 4 → Option Vfb) (dialog' : Point → Option Nat) (mx' my' : Int),
        m'.table = m.table → fb' i = fb i → Visible m' dialog' mx' my' above p →
        (compositorRender m' fb' dialog' mx' my').screen p
          = (compositorRender m fb dialog mx my).screen p := by
  have hshown := screen_at horder hfits hinside hvis hin
  constructor
  · rw [hshown]
    unfold contentValue
    split
    next => exact Or.inl rfl
    next v hfb =>
      dsimp only
      split
      next hpix =>
        obtain ⟨hwidth, hheight⟩ := hinside v hfb
        obtain ⟨_, _, _, _⟩ := hin
        refine Or.inr ⟨v, (p.1 - ((m.table i).x + 1)).toNat, (p.2 - ((m.table i).y + 10)).toNat,
          hfb, ?_, ?_, ?_, rfl⟩
        · refine Nat.lt_of_lt_of_le (Nat.lt_min.mpr ⟨?_, hpix.1⟩) hwidth
          omega
        · refine Nat.lt_of_lt_of_le (Nat.lt_min.mpr ⟨?_, hpix.2⟩) hheight
          omega
        · ext
          · dsimp only
            omega
          · dsimp only
            omega
      next => exact Or.inl rfl
  · intro m' _ _ _ _ htable hfb hvis'
    have horder' : drawOrder m'.table = below ++ i :: above := by rw [htable, horder]
    rw [hshown, screen_at horder' (htable ▸ hfits) (by rw [htable, hfb]; exact hinside) hvis'
      (htable ▸ hin), htable, hfb]

/-- A framebuffer of one colour. -/
def plainVfb (width height color : Nat) (hw : 0 < width) (hh : 0 < height) : Vfb :=
  ⟨width, height, fun _ => color, hw, hh⟩

/-- Three windows over whole framebuffers, of which the second is brought to the front. -/
def threeWindows : Manager :=
  run step start [.create 0 0 ['A'] 1 320 200, .create 10 20 ['B'] 2 320 200,
    .create 40 60 ['C'] 3 320 200, .focus 1]

/-- The colours of the three sessions. -/
def threeVfbs (a b c : Nat) : Fin 4 → Option Vfb := fun i =>
  some (plainVfb 320 200 (if i = 0 then a else if i = 1 then b else c) (by decide) (by decide))

/-- At (5, 40) the window at the back is seen, and at (50, 80) the second one, over the other two;
    what each shows stays when the others change. -/
theorem content_shows_own_session_three : drawOrder threeWindows.table = [0, 2, 1]
      ∧ (compositorRender threeWindows (threeVfbs 5 8 9) (fun _ => none) 100 100).screen (5, 40)
        = (compositorRender threeWindows (threeVfbs 5 6 7) (fun _ => none) 100 100).screen (5, 40)
      ∧ (compositorRender threeWindows (threeVfbs 8 6 9) (fun _ => none) 100 100).screen (50, 80)
        = (compositorRender threeWindows (threeVfbs 5 6 7) (fun _ => none) 100 100).screen
          (50, 80) := by
  have hinside : ∀ i, AskedInside (threeWindows.table i) (threeVfbs 5 6 7 i) := by
    rintro i v hv
    obtain rfl := Option.some.inj hv
    exact ⟨Nat.min_le_right _ _, Nat.min_le_right _ _⟩
  have hback : Visible threeWindows (fun _ => none) 100 100 [2, 1] (5, 40) :=
    ⟨by decide, by unfold Window.inFrame; decide +kernel, rfl, by decide, by decide⟩
  have hfront : Visible threeWindows (fun _ => none) 100 100 [] (50, 80) :=
    ⟨by decide, fun _ hj => absurd hj not_mem_nil, rfl, by decide, by decide⟩
  refine ⟨by decide +kernel, ?_, ?_⟩
  · exact (content_shows_own_session threeWindows (threeVfbs 5 6 7) (fun _ => none) 100 100 0 []
      [2, 1] (5, 40) (by decide +kernel) (by decide +kernel) (hinside 0) hback
      (by unfold Window.inContent; decide +kernel)).2 threeWindows (threeVfbs 5 8 9) _ _ _ rfl rfl
      hback
  · exact (content_shows_own_session threeWindows (threeVfbs 5 6 7) (fun _ => none) 100 100 1
      [0, 2] [] (50, 80) (by decide +kernel) (by decide) (hinside 1) hfront
      (by unfold Window.inContent; decide +kernel)).2 threeWindows (threeVfbs 8 6 9) _ _ _ rfl rfl
      hfront

/-- A window over a whole framebuffer and a smaller one in front of it. -/
def twoWindows : Manager := run step start [.create 0 0 ['A'] 1 320 200, .create 10 20 ['B'] 2 20 4]

/-- Session 1 has only pixels of colour 5, session 2 only pixels of colour 6. -/
def twoVfbs : Fin 4 → Option Vfb
  | 0 => some (plainVfb 320 200 5 (by decide) (by decide))
  | _ => some (plainVfb 20 4 6 (by decide) (by decide))

/-- The last row of the front window's content area is one below its framebuffer, and shows the
    pixels of the other session that were left in the transfer buffer. -/
theorem window_shows_other_session : drawOrder twoWindows.table = [0, 1]
      ∧ (twoWindows.table 1).inContent (11, 34)
      ∧ Visible twoWindows (fun _ => none) 100 100 [] (11, 34)
      ∧ (compositorRender twoWindows twoVfbs (fun _ => none) 100 100).screen (11, 34) = 5 := by
  refine ⟨by decide +kernel, ?_, ?_, by decide +kernel⟩
  · unfold Window.inContent
    decide +kernel
  · exact ⟨by decide, fun j hj => absurd hj not_mem_nil, rfl, by decide, by decide⟩

/-! ## The kernel's copy -/

/-- The pixels of a clipped rectangle, one row after the other. -/
theorem rows_eq (f : Nat → Nat → α) (w h : Nat) :
    (List.range h).flatMap (fun row => (List.range w).map (f row))
      = (List.range (w * h)).map (fun k => f (k / w) (k % w)) := by
  induction h with
  | zero => rfl
  | succ h ih =>
    rw [range_succ, flatMap_append, flatMap_singleton, ih, Nat.mul_succ, range_add, map_append,
      map_map]
    congr 1
    refine map_congr_left (fun j hj => ?_)
    have hlt : j < w := mem_range.mp hj
    rw [Function.comp_apply, Nat.mul_add_div (by omega), Nat.div_eq_of_lt hlt, Nat.mul_add_mod,
      Nat.mod_eq_of_lt hlt, Nat.add_zero]

/-- A clipped length, as the kernel computes it for a corner at 0. -/
theorem clipped_eq_min (n : BitVec 32) (limit : Nat) :
    (if (0#32 + n).toNat > limit then limit - (0#32).toNat else n.toNat) = min n.toNat limit := by
  rw [BitVec.zero_add]
  split
  next h => exact (Nat.min_eq_right (Nat.le_of_lt h)).symm
  next h => exact (Nat.min_eq_left (Nat.le_of_not_lt h)).symm

/-- The offset of a pixel does not wrap in a framebuffer of fewer than 2^32 pixels. -/
theorem pixelOffset_toNat (hsize : width * height < 2 ^ 32)
    (hrow : row < height) (hcol : col < width) :
    ((0#32 + BitVec.ofNat 32 row) * BitVec.ofNat 32 width + 0#32
      + BitVec.ofNat 32 col).toNat = row * width + col := by
  rw [BitVec.zero_add, BitVec.add_zero, ← BitVec.ofNat_mul, ← BitVec.ofNat_add,
    BitVec.toNat_ofNat, Nat.mod_eq_of_lt (Nat.lt_trans (pixel_lt hrow hcol) hsize)]

/-- The transfer buffer after a read is what the loops of `session_manager_read_vfb` write over it.
    -/
theorem readRect_values (mem : Pixels) (buffer : Int) (v : Vfb)
    (hpixels : ∀ j : Nat, v.pixels j = (mem (buffer + j)).value)
    (hsize : v.width * v.height < 2 ^ 32) (w h : BitVec 32) (bulk : Bulk) (k : Nat) :
    ((SessionIo.readRect mem buffer v.width v.height 0#32 0#32 w h)[k]?.map
      Provenance.Cell.value).getD (bulk k) = readVfb v w.toNat h.toNat bulk k := by
  unfold SessionIo.readRect readVfb
  rw [clipped_eq_min, clipped_eq_min, rows_eq (fun row col => mem (buffer
    + (((0#32 + BitVec.ofNat 32 row) * BitVec.ofNat 32 v.width + 0#32
      + BitVec.ofNat 32 col).toNat : Int))), List.getElem?_map]
  split
  next hk =>
    have hwpos : 0 < min w.toNat v.width := by
      rcases Nat.eq_zero_or_pos (min w.toNat v.width) with h0 | hpos
      · rw [h0, Nat.zero_mul] at hk
        omega
      · exact hpos
    have hcol : k % min w.toNat v.width < v.width :=
      Nat.lt_of_lt_of_le (Nat.mod_lt _ hwpos) (Nat.min_le_right _ _)
    have hrow : k / min w.toNat v.width < v.height := by
      refine Nat.lt_of_lt_of_le ((Nat.div_lt_iff_lt_mul hwpos).mpr ?_) (Nat.min_le_right h.toNat _)
      rwa [Nat.mul_comm]
    rw [List.getElem?_range hk, Option.map_some, Option.map_some, Option.getD_some,
      pixelOffset_toNat hsize hrow hcol, hpixels]
  next hk =>
    rw [List.getElem?_eq_none (by simpa using hk)]
    rfl

end Compositor
